import CsmProxy.Runtime.Spawn

/-!
# The sections of `start`

`StartPc.step_section` says once what one section of a `start` call can do: the eight ways
to fail, the file and process operations between the reservation and the store, and the
store. What follows about starts is read off from it.
-/

namespace CsmProxy

open Foundations

namespace StartPc

/-- The operations of `start` that can fail, with the arguments that ask for them. -/
def CanFail (args : StartArgs) (pc : StartPc) : Prop :=
  pc = .createDir ∨ (pc = .seedBook ∧ args.sampleBook = true) ∨
    (pc = .seedSettings ∧ args.autoSleep = false) ∨ pc = .exec

/-- What one section of the call of task `me` does, with the choice that lets it run. -/
inductive Section (args : StartArgs) (me : Nat) (h : Host) :
    StartPc → Choice → Host → StartPc ⊕ Except SpawnError UInt32 → Prop
  | invalidId {connected : Bool} (invalid : isValidInstanceId args.instanceId = false) :
    Section args me h (.check connected) .run h (.inr (.error .invalidId))
  | notConfigured {connected : Bool} (valid : isValidInstanceId args.instanceId = true)
      (missing : h.config.binary = none) :
    Section args me h (.check connected) .run h (.inr (.error .notConfigured))
  | alreadyConnected (valid : isValidInstanceId args.instanceId = true)
      (configured : h.config.binary ≠ none) :
    Section args me h (.check true) .run h (.inr (.error .alreadyConnected))
  | checked (valid : isValidInstanceId args.instanceId = true)
      (configured : h.config.binary ≠ none) :
    Section args me h (.check false) .run h (.inl .reserve)
  | alreadySpawned {s : Supervisor}
      (refused : h.supervisor.reserve h.alive args.instanceId = (false, s)) :
    Section args me h .reserve .run { h with supervisor := s } (.inr (.error .alreadySpawned))
  | reserved {s : Supervisor}
      (granted : h.supervisor.reserve h.alive args.instanceId = (true, s)) :
    Section args me h .reserve .run { h with supervisor := s } (.inl .createDir)
  | createDir : Section args me h .createDir .run h (.inl .seedBook)
  | seedBook : Section args me h .seedBook .run h (.inl .seedSettings)
  | seedSettings : Section args me h .seedSettings .run h (.inl .exec)
  | spawned {child : Nat} {pid : UInt32} (unused : h.process.lookup child = none) :
    Section args me h .exec (.spawned child pid)
      { h with process :=
          h.process.insert child { owner := me, instanceId := args.instanceId, pid := pid } }
      (.inl (.store child pid))
  | failed {pc : StartPc} {err : String} (op : pc.CanFail args) :
    Section args me h pc (.fails err) h (.inl (.clear err))
  | cleared {err : String} :
    Section args me h (.clear err) .run
      { h with supervisor := h.supervisor.clearStarting args.instanceId }
      (.inr (.error (.spawnFailed err)))
  | stored {child : Nat} {pid : UInt32} :
    Section args me h (.store child pid) .run
      { h with supervisor := h.supervisor.storeChild args.instanceId child } (.inr (.ok pid))

theorem step_section {args : StartArgs} {me : Nat} {h h' : Host} {pc : StartPc} {i : Choice}
    {out : StartPc ⊕ Except SpawnError UInt32} (hs : pc.step args me h i = some (h', out)) :
    Section args me h pc i h' out := by
  cases pc with
  | check connected =>
    cases i <;> cases hs
    split
    · rename_i hinvalid
      exact .invalidId (by simpa using hinvalid)
    · rename_i hvalid
      have hid : isValidInstanceId args.instanceId = true := by simpa using hvalid
      split
      · rename_i hmissing
        exact .notConfigured hid (Option.isNone_iff_eq_none.mp hmissing)
      · rename_i hbinary
        have hconfigured : h.config.binary ≠ none := fun hnone =>
          hbinary (Option.isNone_iff_eq_none.mpr hnone)
        cases connected with
        | true => exact .alreadyConnected hid hconfigured
        | false => exact .checked hid hconfigured
  | reserve =>
    cases i <;> simp only [step] at hs
    case run =>
      generalize hr : h.supervisor.reserve h.alive args.instanceId = r at hs
      obtain ⟨free, supervisor⟩ := r
      cases free <;> cases hs
      · exact .alreadySpawned hr
      · exact .reserved hr
    all_goals cases hs
  | createDir =>
    cases i <;> cases hs
    · exact .createDir
    · exact .failed (.inl rfl)
  | seedBook =>
    cases i <;> simp only [step] at hs
    case run => cases hs; exact .seedBook
    case fails err =>
      split at hs
      · rename_i hbook
        cases hs
        exact .failed (.inr (.inl ⟨rfl, hbook⟩))
      · cases hs
    all_goals cases hs
  | seedSettings =>
    cases i <;> simp only [step] at hs
    case run => cases hs; exact .seedSettings
    case fails err =>
      split at hs
      · rename_i hsettings
        cases hs
        exact .failed (.inr (.inr (.inl ⟨rfl, by simpa using hsettings⟩)))
      · cases hs
    all_goals cases hs
  | exec =>
    cases i <;> simp only [step] at hs
    case spawned child pid =>
      split at hs
      · rename_i hunused
        cases hs
        exact .spawned (Option.isNone_iff_eq_none.mp hunused)
      · cases hs
    case fails err => cases hs; exact .failed (.inr (.inr (.inr rfl)))
    all_goals cases hs
  | clear err => cases i <;> cases hs; exact .cleared
  | store child pid => cases i <;> cases hs; exact .stored

end StartPc

end CsmProxy
