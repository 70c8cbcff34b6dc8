import Mathlib.Data.List.Basic

/-!
# Bytes in lower-case hexadecimal

`encode` writes two digits for every byte, `decode` reads them back and accepts nothing
else: `decode cs = some bs` holds exactly when `cs` is `encode bs`.
-/

namespace CsmProxy.Foundations.Hex

/-- The digits, by value. -/
def digits : List Char :=
  ['0', '1', '2', '3', '4', '5', '6', '7', '8', '9', 'a', 'b', 'c', 'd', 'e', 'f']

def digit (n : Nat) : Char := digits.getD n '0'

def value (c : Char) : Option Nat := digits.findIdx? fun d => d = c

theorem digit_mem (n : Nat) : digit n ∈ digits := by
  unfold digit
  rw [List.getD_eq_getElem?_getD]
  cases h : digits[n]? with
  | none => decide
  | some c => exact List.mem_of_getElem? h

theorem value_digit {n : Nat} (h : n < 16) : value (digit n) = some n := by
  have hall : ∀ n < 16, value (digit n) = some n := by decide
  exact hall n h

theorem of_value {c : Char} {n : Nat} (h : value c = some n) : n < 16 ∧ digit n = c := by
  obtain ⟨hn, hc, -⟩ := List.findIdx?_eq_some_iff_getElem.mp h
  refine ⟨hn, ?_⟩
  rw [digit, List.getD_eq_getElem?_getD, List.getElem?_eq_getElem hn, Option.getD_some]
  exact of_decide_eq_true hc

/-- Two digits, the high half first. -/
def encodeByte (b : UInt8) : List Char := [digit (b.toNat / 16), digit (b.toNat % 16)]

def encode (bs : List UInt8) : List Char := bs.flatMap encodeByte

def decode : List Char → Option (List UInt8)
  | [] => some []
  | [_] => none
  | high :: low :: rest =>
    match value high, value low, decode rest with
    | some x, some y, some bs => some (UInt8.ofNat (16 * x + y) :: bs)
    | _, _, _ => none

theorem encode_subset (bs : List UInt8) : ∀ c ∈ encode bs, c ∈ digits := by
  intro c hc
  obtain ⟨b, -, hb⟩ := List.mem_flatMap.mp hc
  rcases List.mem_pair.mp hb with rfl | rfl <;> exact digit_mem _

theorem decode_encode (bs : List UInt8) : decode (encode bs) = some bs := by
  induction bs with
  | nil => rfl
  | cons b bs ih =>
    have hlt : b.toNat < 256 := b.toNat_lt
    have hhigh : value (digit (b.toNat / 16)) = some (b.toNat / 16) := value_digit (by omega)
    have hlow : value (digit (b.toNat % 16)) = some (b.toNat % 16) := value_digit (by omega)
    have hbyte : 16 * (b.toNat / 16) + b.toNat % 16 = b.toNat := by omega
    have hcons : encode (b :: bs) = digit (b.toNat / 16) :: digit (b.toNat % 16) :: encode bs := rfl
    rw [hcons, decode, hhigh, hlow, ih]
    simp only [hbyte, UInt8.ofNat_toNat]

theorem encode_of_decode {cs : List Char} {bs : List UInt8} (h : decode cs = some bs) :
    encode bs = cs := by
  induction cs using decode.induct generalizing bs with
  | case1 =>
    obtain rfl := Option.some.inj h
    rfl
  | case2 c => cases h
  | case3 high low rest x y bs' hrest hx hy ih =>
    rw [decode, hx, hy, hrest] at h
    obtain rfl := Option.some.inj h
    obtain ⟨hx16, hhigh⟩ := of_value hx
    obtain ⟨hy16, hlow⟩ := of_value hy
    have hbyte : (UInt8.ofNat (16 * x + y)).toNat = 16 * x + y := by
      rw [UInt8.toNat_ofNat', Nat.mod_eq_of_lt (by omega)]
    have hx' : (16 * x + y) / 16 = x := by omega
    have hy' : (16 * x + y) % 16 = y := by omega
    have hcons : encode (UInt8.ofNat (16 * x + y) :: bs') =
        encodeByte (UInt8.ofNat (16 * x + y)) ++ encode bs' := rfl
    rw [hcons, encodeByte, hbyte, hx', hy', hhigh, hlow, ih hrest]
    rfl
  | case4 high low rest hnot ih =>
    rw [decode] at h
    split at h
    · rename_i x y bs' hx hy hrest
      exact absurd hrest (hnot x y bs' hx hy)
    · cases h

theorem decode_eq_some {cs : List Char} {bs : List UInt8} :
    decode cs = some bs ↔ cs = encode bs := by
  constructor
  · intro h
    exact (encode_of_decode h).symm
  · rintro rfl
    exact decode_encode bs

theorem encode_injective {bs bs' : List UInt8} (h : encode bs = encode bs') : bs = bs' := by
  have hdecode := decode_encode bs
  rw [h, decode_encode] at hdecode
  exact (Option.some.inj hdecode).symm

end CsmProxy.Foundations.Hex
