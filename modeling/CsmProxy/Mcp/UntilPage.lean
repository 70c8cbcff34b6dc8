import CsmProxy.Foundations.Decimal
import CsmProxy.Foundations.Occurrence
import CsmProxy.Mcp.ObserveUntil

/-!
# Waiting for a page by number

`until_progress_page` is compared with the number behind the first `page=` of a
`Progress saved:` line. `tagged_i32` cuts the line at the tag, takes the digits and minus
signs that follow, and parses them.

* `secondPiece_append`: the piece behind the first tag, up to the next one.
* `parseI32_decimal`: every 32-bit number is read back from its decimal notation.
* `taggedI32_page`: so the number that the line gives is read, whatever stands behind it.
-/

namespace CsmProxy

open Foundations

/-! ## Cutting at a tag -/

section Tags

variable {tag : List Char}

/-- The tag is found behind a text that does not contain it. -/
theorem afterTag_append (htag : Unrepeated tag) {p : List Char} (hp : ¬ tag <:+: p)
    (t : List Char) : afterTag tag (p ++ (tag ++ t)) = some t := by
  induction p with
  | nil =>
    cases tag with
    | nil => exact htag.elim
    | cons x w =>
      have hfirst : x :: w <+: x :: (w ++ t) := List.prefix_append (x :: w) t
      rw [List.nil_append, List.cons_append, afterTag, if_pos hfirst]
      exact congrArg some List.drop_left
  | cons c p ih =>
    have hfirst : ¬ tag <+: c :: (p ++ (tag ++ t)) := by
      rintro ⟨r, hr⟩
      rcases htag.second_occurrence (c := c :: p) hr with hnil | ⟨d, -, hd⟩
      · cases hnil
      · exact hp (hd ▸ (List.prefix_append tag d).isInfix)
    rw [List.cons_append, afterTag, if_neg hfirst]
    exact ih fun hin => hp (hin.trans (List.suffix_cons c p).isInfix)

theorem beforeTag_initial (tag text : List Char) : beforeTag tag text <+: text := by
  induction text with
  | nil => exact List.prefix_rfl
  | cons c text ih =>
    rw [beforeTag]
    split
    · exact List.nil_prefix
    · exact List.prefix_cons_inj c |>.mpr ih

/-- A text without the first letter of the tag is kept. -/
theorem beforeTag_append {x : Char} {w : List Char} {u : List Char} (hu : x ∉ u) (s : List Char) :
    beforeTag (x :: w) (u ++ s) = u ++ beforeTag (x :: w) s := by
  induction u with
  | nil => rfl
  | cons c u ih =>
    have hfirst : ¬ x :: w <+: c :: (u ++ s) := by
      intro h
      obtain ⟨rfl, -⟩ := List.cons_prefix_cons.mp h
      exact hu List.mem_cons_self
    rw [List.cons_append, beforeTag, if_neg hfirst, ih fun hx => hu (List.mem_cons_of_mem c hx)]
    rfl

end Tags

/-! ## Parsing -/

theorem readNat_eq (digits : List Char) : readNat digits =
    if digits = [] ∨ ¬ digits.all Char.isDigit then none else some (decimalValue digits) := by
  simp only [readNat, decimalValue, Nat.ofDigitChars_eq_foldl, Nat.mul_comm]

/-- `str::parse::<i32>` reads an integer and checks its range. -/
theorem parseI32_eq (text : List Char) : parseI32 text =
    (readInt text).bind fun value =>
      if -2147483648 ≤ value ∧ value ≤ 2147483647 then some (Int32.ofInt value) else none := by
  fun_cases readInt text with
  | case1 digits =>
    rw [readNat_eq, parseI32]
    dsimp only
    split <;> rfl
  | case2 _ hplain =>
    rw [readNat_eq, parseI32]
    · dsimp only
      split <;> rfl
    · exact hplain

theorem parseI32_decimal (n : Int32) : parseI32 (decimal n.toInt) = some n := by
  have hlow : -2147483648 ≤ n.toInt := n.le_toInt
  have hhigh : n.toInt < 2147483648 := n.toInt_lt
  rw [parseI32_eq, readInt_decimal, Option.bind_some, if_pos ⟨hlow, by omega⟩, Int32.ofInt_toInt]

/-! ## The number behind the tag -/

def pageTag : List Char := ['p', 'a', 'g', 'e', '=']

theorem toList_pageTag : "page=".toList = pageTag := by decide

theorem pageTag_unrepeated : Unrepeated pageTag := by
  show 'p' ∉ pageTag.tail
  decide

/-- The first tag of the line is followed by the number `n`, and the number ends there. -/
def PageLine (n : Int32) (text : List Char) : Prop :=
  ∃ p s, text = p ++ (pageTag ++ (decimal n.toInt ++ s)) ∧ ¬ pageTag <:+: p ∧ Stops decimalLetter s

theorem secondPiece_append {p : List Char} (hp : ¬ pageTag <:+: p) (n : Int32) (s : List Char) :
    secondPiece pageTag (p ++ (pageTag ++ (decimal n.toInt ++ s))) =
      some (decimal n.toInt ++ beforeTag pageTag s) := by
  have hletter : 'p' ∉ decimal n.toInt := fun h => absurd (decimalLetter_of_mem h) (by decide)
  rw [secondPiece, afterTag_append pageTag_unrepeated hp, Option.map_some, pageTag,
    beforeTag_append hletter]

theorem taggedI32_page {n : Int32} {text : List Char} (h : PageLine n text) :
    taggedI32 text pageTag = some n := by
  obtain ⟨p, s, rfl, hp, hs⟩ := h
  have hrun : (decimal n.toInt ++ beforeTag pageTag s).takeWhile decimalLetter = decimal n.toInt :=
    takeWhile_run (fun c hc => decimalLetter_of_mem hc) (hs.mono (beforeTag_initial pageTag s))
  rw [taggedI32, secondPiece_append hp, Option.bind_some]
  change parseI32 ((decimal n.toInt ++ beforeTag pageTag s).takeWhile decimalLetter) = some n
  rw [hrun, parseI32_decimal]

/-! ## The condition on a drained line -/

/-- A `Progress saved:` line with the number `n` ends a wait for page `n` only. -/
theorem observeUntilMatched_page_iff {n m readerPage : Int32} {event : SimToServer}
    (hline : PageLine n (logText event))
    (hsaved : strContains (logText event) "Progress saved:".toList = true) (hbeat : readerPage ≠ m)
    (generation : Option UInt64) (activity : String) :
    observeUntilMatched none none none (some m) [event] generation activity readerPage = true ↔
      n = m := by
  have htagged : taggedI32 (logText event) "page=".toList = some n := by
    rw [toList_pageTag, taggedI32_page hline]
  simp only [observeUntilMatched, Option.any_none, Option.any_some, Bool.false_or, Bool.not_true,
    Option.isSome_none, Option.isSome_some, List.any_cons, List.any_nil, Bool.or_false, hsaved,
    Bool.true_and, htagged, decide_eq_false hbeat, Option.some.injEq, decide_eq_true_eq]

theorem pageLine_of_append (n : Int32) {p s : String}
    (hp : strContains p.toList "page=".toList = false)
    (hs : ∀ c ∈ s.toList.head?, c.isDigit = false ∧ c ≠ '-') :
    PageLine n (p ++ "page=" ++ toString n ++ s).toList := by
  refine ⟨p.toList, s.toList, ?_, ?_, ?_⟩
  · rw [String.toList_append, String.toList_append, String.toList_append, toList_pageTag,
      List.append_assoc, List.append_assoc]
    rfl
  · rw [← toList_pageTag]
    exact of_decide_eq_false hp
  · intro c hc
    obtain ⟨hdigit, hminus⟩ := hs c hc
    rw [decimalLetter, hdigit, decide_eq_false hminus]
    rfl

/-- **Pages are read back exactly.** In a line whose first `page=` is followed by the
decimal notation of `n` and then by no further digit or minus sign, `tagged_i32` finds `n`;
so a `Progress saved:` line of that kind ends a wait for page `m` exactly when `n` is `m`,
unless the heartbeat shows `m` already. -/
theorem taggedI32_readBack (n : Int32) {p s : String}
    (hp : strContains p.toList "page=".toList = false)
    (hs : ∀ c ∈ s.toList.head?, c.isDigit = false ∧ c ≠ '-') :
    taggedI32 (p ++ "page=" ++ toString n ++ s).toList "page=".toList = some n ∧
      ∀ (event : SimToServer) (m readerPage : Int32) (generation : Option UInt64)
        (activity : String), logText event = (p ++ "page=" ++ toString n ++ s).toList →
        strContains (logText event) "Progress saved:".toList = true → readerPage ≠ m →
          (observeUntilMatched none none none (some m) [event] generation activity readerPage =
            true ↔ n = m) := by
  have hline := pageLine_of_append n hp hs
  refine ⟨?_, ?_⟩
  · rw [toList_pageTag, taggedI32_page hline]
  · intro event m readerPage generation activity htext hsaved hbeat
    exact observeUntilMatched_page_iff (htext ▸ hline) hsaved hbeat generation activity

/-- A drained line about the page that was saved. -/
def progressEvent (text : String) : SimToServer :=
  { payload := some (.log { component := "ERS", text := text }) }

/-- Page `1` is saved, the line goes on with another `page=`, and a wait for page `12` goes
on too. -/
theorem taggedI32_readBack_one :
    let text := "Progress saved: " ++ "page=" ++ toString (1 : Int32) ++ " of page=12"
    taggedI32 text.toList "page=".toList = some 1 ∧
      observeUntilMatched none none none (some 12) [progressEvent text] none "EpubReader" 0 =
        false := by
  have hstops : ∀ c ∈ " of page=12".toList.head?, c.isDigit = false ∧ c ≠ '-' := by
    intro c hc
    obtain rfl : ' ' = c := Option.some.inj hc
    decide
  have hback := taggedI32_readBack 1 (p := "Progress saved: ") (by decide) hstops
  refine ⟨hback.1, ?_⟩
  refine Bool.eq_false_iff.mpr fun hmatched => ?_
  have hpage := (hback.2 (progressEvent _) 12 0 none "EpubReader" rfl (by decide) (by decide)).mp
    hmatched
  exact absurd hpage (by decide)

end CsmProxy
