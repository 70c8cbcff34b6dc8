import CsmProxy.Foundations.Hex
import CsmProxy.Foundations.UnixPath
import CsmProxy.Instances.InstanceMap

/-!
# Working directories

`default_cwd` of `spawn.rs` names the working directory of an instance after its id. An
id of letters, digits, `.`, `_` and `-` is used as it is, any other is written in
hexadecimal.

* `.` and `..` are used as they are too, and lead out of the directory
  (`staysInside_iff`).
* An id that spells the bytes of another one in hexadecimal shares its directory
  (`ownDirectory_iff`).
-/

namespace CsmProxy

open Foundations UnixPath

/-- `str::as_bytes` -/
def strBytes (s : String) : List UInt8 := s.toByteArray.data.toList

/-- `b.is_ascii_alphanumeric() || matches!(b, b'.' | b'_' | b'-')` -/
def isSafeByte (b : UInt8) : Bool :=
  (48 ≤ b && b ≤ 57) || (65 ≤ b && b ≤ 90) || (97 ≤ b && b ≤ 122) || b = 46 || b = 95 || b = 45

/-- `safe_dir_name` -/
def safeDirName (id : String) : String :=
  if !id.isEmpty && (strBytes id).all isSafeByte then id
  else .ofList (Hex.encode (strBytes id))

/-- `$TMPDIR/csm-spawn` -/
def spawnRoot (tempDir : Path) : Path := push tempDir "csm-spawn".toList

/-- `default_cwd`, with the temporary directory of the process. -/
def defaultCwd (tempDir : Path) (id : String) : Path :=
  push (spawnRoot tempDir) (safeDirName id).toList

/-- Every byte of the id is safe. -/
def IsPlain (id : String) : Prop := (strBytes id).all isSafeByte = true

instance (id : String) : Decidable (IsPlain id) := inferInstanceAs (Decidable (_ = true))

theorem strBytes_injective {s t : String} (h : strBytes s = strBytes t) : s = t := by
  apply String.toByteArray_inj.mp
  apply ByteArray.ext
  exact Array.ext' h

theorem safeDirName_plain {id : String} (hid : id ≠ "") (h : IsPlain id) : safeDirName id = id := by
  have hempty : id.isEmpty = false := by simpa using hid
  rw [safeDirName, hempty, h]
  rfl

theorem safeDirName_hex {id : String} (h : ¬ IsPlain id) :
    (safeDirName id).toList = Hex.encode (strBytes id) := by
  have hall : (strBytes id).all isSafeByte = false := Bool.eq_false_iff.mpr h
  rw [safeDirName, hall, Bool.and_false]
  exact String.toList_ofList

/-! ## What the characters of an id say about its bytes -/

theorem strBytes_eq (s : String) : strBytes s = s.toList.flatMap String.utf8EncodeChar := by
  have hbytes : s.toByteArray = (s.toList.flatMap String.utf8EncodeChar).toByteArray :=
    String.utf8Encode_toList.symm
  rw [strBytes, hbytes, List.toList_data_toByteArray]

/-- A plain id has no separator in it. -/
theorem IsPlain.noSeparator {id : String} (h : IsPlain id) : '/' ∉ id.toList := by
  intro hmem
  have hbyte : (47 : UInt8) ∈ strBytes id := by
    rw [strBytes_eq]
    exact List.mem_flatMap.mpr ⟨'/', hmem, by decide⟩
  have hsafe : isSafeByte 47 = true := List.all_eq_true.mp h 47 hbyte
  exact absurd hsafe (by decide)

theorem isPlain_of_digits {id : String} (h : ∀ c ∈ id.toList, c ∈ Hex.digits) : IsPlain id := by
  have hdigits : (Hex.digits.all fun c => (String.utf8EncodeChar c).all isSafeByte) = true := by
    decide
  refine List.all_eq_true.mpr fun b hb => ?_
  rw [strBytes_eq] at hb
  obtain ⟨c, hc, hbc⟩ := List.mem_flatMap.mp hb
  exact List.all_eq_true.mp (List.all_eq_true.mp hdigits c (h c hc)) b hbc

theorem isValidInstanceId.ne_empty {id : String} (h : isValidInstanceId id = true) : id ≠ "" := by
  rintro rfl
  cases h

theorem strBytes_ne_nil {id : String} (h : id ≠ "") : strBytes id ≠ [] :=
  fun hnil => h (strBytes_injective hnil)

/-! ## Inside the spawn root -/

/-- The name of the directory of a valid id has no separator and is not empty. -/
theorem safeDirName_component {id : String} (hid : isValidInstanceId id = true) :
    '/' ∉ (safeDirName id).toList ∧ (safeDirName id).toList ≠ [] := by
  have hne := isValidInstanceId.ne_empty hid
  by_cases hplain : IsPlain id
  · rw [safeDirName_plain hne hplain]
    exact ⟨hplain.noSeparator, fun hnil => hne (String.toList_eq_nil_iff.mp hnil)⟩
  · rw [safeDirName_hex hplain]
    constructor
    · intro hmem
      exact absurd (Hex.encode_subset _ _ hmem) (by decide)
    · intro hnil
      exact strBytes_ne_nil hne (Hex.encode_injective hnil)

/-- The name is `.` or `..` for these two ids alone. -/
theorem isName_safeDirName_iff {id : String} (hid : isValidInstanceId id = true) :
    IsName (safeDirName id).toList ↔ id ≠ "." ∧ id ≠ ".." := by
  obtain ⟨hslash, hnil⟩ := safeDirName_component hid
  constructor
  · intro h
    constructor
    · rintro rfl
      exact h.not_dot (by decide)
    · rintro rfl
      exact h.not_dotdot (by decide)
  · rintro ⟨hdot, hdotdot⟩
    by_cases hplain : IsPlain id
    · rw [safeDirName_plain (isValidInstanceId.ne_empty hid) hplain] at hslash hnil ⊢
      exact ⟨hnil, hslash, fun h => hdot (String.toList_inj.mp h),
        fun h => hdotdot (String.toList_inj.mp h)⟩
    · rw [safeDirName_hex hplain] at hslash hnil ⊢
      have hdigit : '.' ∉ Hex.encode (strBytes id) := fun hmem =>
        absurd (Hex.encode_subset _ _ hmem) (by decide)
      exact ⟨hnil, hslash, fun h => hdigit (h ▸ by decide), fun h => hdigit (h ▸ by decide)⟩

theorem names_spawnRoot (tempDir : Path) :
    place (spawnRoot tempDir) = (place tempDir).child "csm-spawn".toList :=
  place_push_name ⟨by decide, by decide, by decide, by decide⟩

/-- The directory is just below the spawn root, under a name of its own. -/
structure StaysInside (tempDir : Path) (id : String) : Prop where
  child : DirectChild (spawnRoot tempDir) (defaultCwd tempDir id)
  name : IsName (safeDirName id).toList

/-- **Default working directories.** The directory of a valid id stays inside the spawn
root if and only if the id is neither `.` nor `..`. -/
theorem staysInside_iff (tempDir : Path) {id : String} (hid : isValidInstanceId id = true) :
    StaysInside tempDir id ↔ id ≠ "." ∧ id ≠ ".." := by
  rw [← isName_safeDirName_iff hid]
  constructor
  · intro h
    exact h.name
  · intro h
    exact ⟨⟨_, place_push_name h⟩, h⟩

theorem staysInside_spawn : StaysInside "/tmp".toList "e2e-spawn" :=
  (staysInside_iff "/tmp".toList (by decide)).mpr (by decide)

/-- The directory of `..` is the temporary directory itself. -/
theorem not_staysInside_dotdot :
    ¬ ∀ tempDir id, isValidInstanceId id = true → StaysInside tempDir id := by
  intro hall
  have hname := (hall "/tmp".toList ".." (by decide)).name
  exact hname.not_dotdot (by decide)

/-! ## One directory for each id -/

/-- `b` spells the bytes of `a` in hexadecimal, and `a` is not plain itself. -/
def Spells (b a : String) : Prop := ¬ IsPlain a ∧ Hex.decode b.toList = some (strBytes a)

instance (b a : String) : Decidable (Spells b a) := inferInstanceAs (Decidable (_ ∧ _))

/-- What spells something is plain. -/
theorem Spells.isPlain {a b : String} (h : Spells b a) : IsPlain b := by
  refine isPlain_of_digits fun c hc => ?_
  rw [Hex.decode_eq_some.mp h.2] at hc
  exact Hex.encode_subset _ c hc

/-- Two ids have one name when they are the same or one spells the other. -/
theorem safeDirName_eq_iff {a b : String} (ha : isValidInstanceId a = true)
    (hb : isValidInstanceId b = true) :
    safeDirName a = safeDirName b ↔ a = b ∨ Spells a b ∨ Spells b a := by
  have hspells : ∀ {x y : String}, x ≠ "" → IsPlain x → ¬ IsPlain y →
      (safeDirName x = safeDirName y ↔ Spells x y) := by
    intro x y hx hxplain hyplain
    rw [safeDirName_plain hx hxplain, ← String.toList_inj, safeDirName_hex hyplain, Spells,
      Hex.decode_eq_some]
    simp only [hyplain, not_false_eq_true, true_and]
  have hane := isValidInstanceId.ne_empty ha
  have hbne := isValidInstanceId.ne_empty hb
  by_cases hpa : IsPlain a <;> by_cases hpb : IsPlain b
  · have hab : ¬ Spells a b := fun h => h.1 hpb
    have hba : ¬ Spells b a := fun h => h.1 hpa
    simp only [safeDirName_plain hane hpa, safeDirName_plain hbne hpb, hab, hba, or_false]
  · have hne : a ≠ b := fun h => hpb (h ▸ hpa)
    have hba : ¬ Spells b a := fun h => h.1 hpa
    simp only [hspells hane hpa hpb, hne, hba, or_false, false_or]
  · have hne : a ≠ b := fun h => hpa (h ▸ hpb)
    have hab : ¬ Spells a b := fun h => h.1 hpb
    rw [eq_comm, hspells hbne hpb hpa]
    simp only [hne, hab, false_or]
  · have hab : ¬ Spells a b := fun h => hpa h.isPlain
    have hba : ¬ Spells b a := fun h => hpb h.isPlain
    simp only [hab, hba, or_false]
    constructor
    · intro h
      rw [← String.toList_inj, safeDirName_hex hpa, safeDirName_hex hpb] at h
      exact strBytes_injective (Hex.encode_injective h)
    · exact congrArg safeDirName

/-- The two ids have different directories. -/
structure OwnDirectory (tempDir : Path) (a b : String) : Prop where
  name : safeDirName a ≠ safeDirName b
  place : place (defaultCwd tempDir a) ≠ place (defaultCwd tempDir b)

/-- **Working directories are per instance.** Two valid ids have different directories if
and only if neither spells the other in hexadecimal. -/
theorem ownDirectory_iff (tempDir : Path) {a b : String} (ha : isValidInstanceId a = true)
    (hb : isValidInstanceId b = true) (hne : a ≠ b) :
    OwnDirectory tempDir a b ↔ ¬ Spells a b ∧ ¬ Spells b a := by
  have hname : safeDirName a ≠ safeDirName b ↔ ¬ Spells a b ∧ ¬ Spells b a := by
    rw [ne_eq, safeDirName_eq_iff ha hb]
    simp only [hne, false_or, not_or]
  rw [← hname]
  constructor
  · intro h
    exact h.name
  · intro h
    refine ⟨h, fun hplace => h ?_⟩
    obtain ⟨hslash, hnil⟩ := safeDirName_component ha
    obtain ⟨hslash', hnil'⟩ := safeDirName_component hb
    have hroot : (UnixPath.place (spawnRoot tempDir)).names ≠ [] := by
      rw [names_spawnRoot]
      simp [Place.child]
    exact String.toList_inj.mp (push_inj hroot hslash hnil hslash' hnil' hplace)

theorem ownDirectory_slash : OwnDirectory "/tmp".toList "/" "a" :=
  (ownDirectory_iff "/tmp".toList (by decide) (by decide) (by decide)).mpr (by decide)

/-- The ids `/` and `2f` have one directory. -/
theorem not_ownDirectory_slash :
    ¬ ∀ tempDir a b, isValidInstanceId a = true → isValidInstanceId b = true → a ≠ b →
      OwnDirectory tempDir a b := by
  intro hall
  have hname := (hall "/tmp".toList "/" "2f" (by decide) (by decide) (by decide)).name
  exact hname (by decide)

end CsmProxy
