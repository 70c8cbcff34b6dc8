import CsmProxy.Runtime.Session

/-!
# The sections of a stream's handler

`Session.step_section` says once what one section of a handler can do to the host and to the
handler. What follows about handlers is read off from it.
-/

namespace CsmProxy

namespace Session

/-- What one section of the handler `s` does, with the choice that lets it run. -/
inductive Section (h : Host) (s : Session) : Choice → Host → Session → Prop
  | accept {item : StreamItem} (pc : s.pc = .first) (dial : s.canDial h = true) :
    Section h s (.item item) h (s.accept item)
  | allocToken (pc : s.pc = .allocToken) :
    Section h s .run { h with instances := h.instances.allocToken.2 }
      { s with token := h.instances.nextToken, pc := .insert }
  | insert (pc : s.pc = .insert) :
    Section h s .run
      { h with instances :=
          h.instances.insertInstance s.token s.register queueCapacity (.new queueCapacity) }
      { s with pc := .next }
  | closed (pc : s.pc = .next) : Section h s (.item .closed) h { s with pc := .leaving }
  | failed {err : String} (pc : s.pc = .next) :
    Section h s (.item (.error err)) h { s with pc := .owns (.error err) }
  | read {msg : SimToServer} (pc : s.pc = .next) :
    Section h s (.item (.message msg)) h
      { s with received := s.received ++ [msg], pc := .owns (.message msg) }
  | owned {item : StreamItem} (pc : s.pc = .owns item)
      (owns : h.instances.owns s.register.instanceId s.token = true) :
    Section h s .run h { s with pc := dispatch item }
  | replaced {item : StreamItem} (pc : s.pc = .owns item)
      (lost : h.instances.owns s.register.instanceId s.token = false) :
    Section h s .run h { s with pc := .leaving }
  | heartbeat {hb : Heartbeat} {msg : SimToServer} (pc : s.pc = .heartbeat hb msg) :
    Section h s .run
      { h with instances := h.instances.setHeartbeat s.register.instanceId s.token hb }
      { s with pc := .push msg .complete }
  | push {msg : SimToServer} {sub : PushPc} {h' : Host} {out : Option PushPc}
      (pc : s.pc = .push msg sub) (call : sub.step s.register.instanceId msg h = (h', out)) :
    Section h s .run h' { s with pc := out.elim (afterPush msg) (.push msg) }
  | removeGoodbye {sub : RemovePc} {i : Choice} {h' : Host} {out : Option RemovePc}
      (pc : s.pc = .removeGoodbye sub)
      (call : sub.step s.register.instanceId s.token h i = some (h', out)) :
    Section h s i h' { s with pc := out.elim .leaving .removeGoodbye }
  | leave (pc : s.pc = .leaving) : Section h s .run h { s with pc := .remove .entry }
  | remove {sub : RemovePc} {i : Choice} {h' : Host} {out : Option RemovePc}
      (pc : s.pc = .remove sub)
      (call : sub.step s.register.instanceId s.token h i = some (h', out)) :
    Section h s i h' { s with pc := out.elim .ended .remove }

theorem step_section {h h' : Host} {s s' : Session} {i : Choice}
    (hs : s.step h i = some (h', s')) : Section h s i h' s' := by
  obtain ⟨dialler, register, token, received, pc⟩ := s
  cases pc with
  | first =>
    cases i with
    | item item =>
      simp only [step] at hs
      split at hs
      · rename_i hdial
        cases hs
        exact .accept rfl hdial
      · cases hs
    | _ => cases hs
  | allocToken => cases i <;> cases hs; exact .allocToken rfl
  | insert => cases i <;> cases hs; exact .insert rfl
  | next =>
    cases i with
    | item item =>
      cases item with
      | message msg => cases hs; exact .read rfl
      | error err => cases hs; exact .failed rfl
      | closed => cases hs; exact .closed rfl
    | _ => cases hs
  | owns item =>
    cases i <;> cases hs
    cases hown : h.instances.owns register.instanceId token with
    | true => exact .owned rfl hown
    | false => exact .replaced rfl hown
  | heartbeat hb msg => cases i <;> cases hs; exact .heartbeat rfl
  | push msg sub => cases i <;> cases hs; exact .push rfl rfl
  | removeGoodbye sub =>
    obtain ⟨⟨g, out⟩, hp, he⟩ := Option.map_eq_some_iff.mp hs
    cases he
    exact .removeGoodbye rfl hp
  | leaving => cases i <;> cases hs; exact .leave rfl
  | remove sub =>
    obtain ⟨⟨g, out⟩, hp, he⟩ := Option.map_eq_some_iff.mp hs
    cases he
    exact .remove rfl hp
  | refused text | ended => cases i <;> cases hs

end Session

end CsmProxy
