import CsmProxy.Runtime.Observe
import Mathlib.Tactic.Tauto

/-!
# The sections of an observe call

`ObserveCall.step_cases` says once what one section of a call can do to the host and to the
call. What follows about observe calls is read off from it.
-/

namespace CsmProxy

namespace ObserveCall

/-- What one section of the call of task `me` does to the host `h` and to the call `c`. -/
inductive Section (me : Nat) (h : Host) (c : ObserveCall) : Host → ObserveCall → Prop
  | named {id : String} (pc : c.pc = .default) (found : h.instances.defaultInstance = some id) :
    Section me h c h { c with pc := .resolve id }
  | unnamed (pc : c.pc = .default) (missing : h.instances.defaultInstance = none) :
    Section me h c h { c with pc := .returned (.error (resolveError .emptyId)) }
  | resolved {id : String} {snap : InstanceSnapshot} (pc : c.pc = .resolve id)
      (found : h.instances.resolve id = .ok snap) :
    Section me h c h { c with id := snap.register.instanceId, pc := .readMask }
  | unresolved {id : String} {err : ResolveError} (pc : c.pc = .resolve id)
      (missing : h.instances.resolve id = .error err) :
    Section me h c h { c with pc := .returned (.error (resolveError err)) }
  | readMask (pc : c.pc = .readMask) :
    Section me h c h { c with pc := .drain ((h.instances.readMask c.id).getD []) }
  | pop {mask : List String} {msg : SimToServer} {instances : InstanceMap}
      (pc : c.pc = .drain mask) (recv : h.instances.tryRecvInbound c.id = (some msg, instances)) :
    Section me h c { h with instances := instances, pops := h.pops ++ [(me, c.id, msg)] }
      { c with
        events := if InstanceMap.inboundVisible mask msg then c.events ++ [msg] else c.events }
  | drained {mask : List String} {instances : InstanceMap} (pc : c.pc = .drain mask)
      (recv : h.instances.tryRecvInbound c.id = (none, instances)) :
    Section me h c { h with instances := instances } { c with pc := c.afterDrain }
  | floor {spec : ObserveSpec} (pc : c.pc = .floor) (waits : c.spec = some spec) :
    Section me h c h { c with
      polling := true
      floor := generationFloor h.instances c.id spec
      deadline := h.now + millis (spec.timeoutMs h.config.observeWaitMs).toNat
      pc := .check }
  | check {spec : ObserveSpec} (pc : c.pc = .check) (waits : c.spec = some spec) :
    Section me h c h { c with pc := .clock (c.untilMatched spec (heartbeatUi h.instances c.id)) }
  | exit {spec : ObserveSpec} {matched : Bool} (pc : c.pc = .clock matched)
      (waits : c.spec = some spec)
      (last : (spec.waiting = true ∧ matched = true) ∨ c.deadline ≤ h.now) :
    Section me h c h { c with pc := .reply spec.waiting matched }
  | sleep {spec : ObserveSpec} {matched : Bool} (pc : c.pc = .clock matched)
      (waits : c.spec = some spec) (unmatched : spec.waiting = true → matched = false)
      (early : h.now < c.deadline) :
    Section me h c h { c with pc := .sleep (h.now + millis 25) }
  | reply {waiting matched : Bool} (pc : c.pc = .reply waiting matched) :
    Section me h c h { c with pc := .returned (.ok {
      instanceId := c.id
      events := c.events
      ui := heartbeatUi h.instances c.id
      matched := if waiting then some matched else none
      timedOut := if waiting then some (!matched) else none }) }
  | wake {wake : Nat} (pc : c.pc = .sleep wake) (late : wake ≤ h.now) :
    Section me h c h { c with pc := .resolve c.id }

theorem step_cases {me : Nat} {h h' : Host} {c c' : ObserveCall} {i : Choice}
    (hs : c.step me h i = some (h', c')) : Section me h c h' c' := by
  unfold step at hs
  split at hs
  · rename_i hpc
    split at hs
    · rename_i id hd
      cases hs
      exact .named hpc hd
    · rename_i hd
      cases hs
      exact .unnamed hpc hd
  · rename_i id hpc
    split at hs
    · rename_i snap hr
      cases hs
      exact .resolved hpc hr
    · rename_i err hr
      cases hs
      exact .unresolved hpc hr
  · rename_i hpc
    cases hs
    exact .readMask hpc
  · rename_i mask hpc
    split at hs
    · rename_i msg instances hrecv
      cases hs
      exact .pop hpc hrecv
    · rename_i instances hrecv
      cases hs
      exact .drained hpc hrecv
  · rename_i hpc
    split at hs
    · cases hs
    · rename_i spec hspec
      cases hs
      exact .floor hpc hspec
  · rename_i hpc
    obtain ⟨spec, hspec, he⟩ := Option.map_eq_some_iff.mp hs
    cases he
    exact .check hpc hspec
  · rename_i matched hpc
    obtain ⟨spec, hspec, he⟩ := Option.map_eq_some_iff.mp hs
    dsimp only at he
    split at he
    · rename_i hlast
      cases he
      refine .exit hpc hspec ?_
      simp only [Bool.or_eq_true, Bool.and_eq_true, decide_eq_true_eq] at hlast
      tauto
    · rename_i hgo
      cases he
      simp only [Bool.or_eq_true, Bool.and_eq_true, decide_eq_true_eq, Bool.not_eq_true'] at hgo
      refine .sleep hpc hspec (fun hwait => ?_) ?_
      · simp only [hwait, true_and] at hgo
        simp_all
      · by_contra hlate
        have := Nat.le_of_not_lt hlate
        cases hwait : spec.waiting <;> simp_all
  · rename_i waiting matched hpc
    cases hs
    exact .reply hpc
  · rename_i wake hpc
    split at hs
    · rename_i hover
      cases hs
      exact .wake hpc hover
    · cases hs
  · cases hs

end ObserveCall

end CsmProxy
