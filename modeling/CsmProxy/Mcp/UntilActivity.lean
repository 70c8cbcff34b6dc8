import CsmProxy.Foundations.Occurrence
import CsmProxy.Mcp.ObserveUntil

/-!
# Waiting for an activity by name

`until_activity` is compared with the heartbeat's activity by equality, but a log line
is searched for `Entering activity: {name}` as a part of its text. So the line that
reports entering `EpubReaderMenu` ends a wait for `EpubReader`.

* `Reports`: a line that reports entering one activity.
* `matches_iff`: which names such a line matches.
* `observeUntilMatched_activity_iff`: the condition under which only the reported
  activity ends the wait.
-/

namespace CsmProxy

def entering : List Char := ['E', 'n', 't', 'e', 'r', 'i', 'n', 'g']

def activityColon : List Char := [' ', 'a', 'c', 't', 'i', 'v', 'i', 't', 'y', ':', ' ']

/-- What a log line says before the name of the activity it reports. -/
def enteringActivity : List Char := entering ++ activityColon

theorem toList_enteringActivity : "Entering activity: ".toList = enteringActivity := by decide

theorem enteringActivity_unrepeated : Unrepeated enteringActivity := by
  show 'E' ∉ enteringActivity.tail
  decide

section Lines

-- `letter`: the characters that names are made of
variable {letter : Char → Bool} {M N : String}

/-- The line reports entering the activity `M` and nothing else. -/
def Reports (letter : Char → Bool) (M : String) (text : List Char) : Prop :=
  ∃ p s, text = p ++ (enteringActivity ++ (M.toList ++ s)) ∧ ¬ enteringActivity <:+: p ∧
    ¬ enteringActivity <:+: s ∧ Stops letter s

/-- The end of the name `M` and the text after it report entering `N` once more. -/
def Straddles (M N : String) (text : List Char) : Prop :=
  entering <:+ M.toList ∧
    enteringActivity ++ (M.toList ++ (activityColon ++ N.toList)) <:+: text

instance (M N : String) (text : List Char) : Decidable (Straddles M N text) :=
  inferInstanceAs (Decidable (_ ∧ _))

theorem activityColon_stops (hblank : letter ' ' = false) (r : List Char) :
    Stops letter (activityColon ++ r) := by
  intro c hc
  obtain rfl : ' ' = c := Option.some.inj hc
  exact hblank

/-- An occurrence of the phrase behind a name of letters starts inside the name. -/
theorem inner_occurrence (hletter : ∀ c ∈ entering, letter c) (hblank : letter ' ' = false)
    (hM : ∀ c ∈ M.toList, letter c) {s d r : List Char} (hs : ¬ enteringActivity <:+: s)
    (hstops : Stops letter s) (h : M.toList ++ s = d ++ (enteringActivity ++ r)) :
    entering <:+ M.toList ∧ s = activityColon ++ r := by
  rcases List.append_eq_append_iff.mp h with ⟨c, -, hsc⟩ | ⟨c, hMc, hr⟩
  · exact absurd (hsc ▸ List.infix_append' c enteringActivity r) hs
  · have hc : ∀ x ∈ c, letter x := fun x hx => hM x (hMc ▸ List.mem_append_right d hx)
    rw [enteringActivity, List.append_assoc] at hr
    obtain ⟨rfl, hsr⟩ := run_unique hletter hc (activityColon_stops hblank r) hstops hr
    exact ⟨hMc ▸ List.suffix_append d entering, hsr.symm⟩

theorem straddles_iff (hletter : ∀ c ∈ entering, letter c) (hblank : letter ' ' = false)
    (hM : ∀ c ∈ M.toList, letter c) {p s : List Char} (hp : ¬ enteringActivity <:+: p)
    (hs : ¬ enteringActivity <:+: s) (hstops : Stops letter s) :
    Straddles M N (p ++ (enteringActivity ++ (M.toList ++ s))) ↔
      entering <:+ M.toList ∧ activityColon ++ N.toList <+: s := by
  constructor
  · rintro ⟨hend, a, b, hab⟩
    have hocc : a ++ (enteringActivity ++ (M.toList ++ (activityColon ++ (N.toList ++ b)))) =
        p ++ (enteringActivity ++ (M.toList ++ s)) := by simpa using hab
    refine ⟨hend, ?_⟩
    rcases enteringActivity_unrepeated.occurrence hp hocc with heq | ⟨d, hd⟩
    · exact ⟨b, by simpa using List.append_cancel_left heq⟩
    · -- `s` would go on with `M` and the colon, and `M` ends in the rest of the phrase
      obtain ⟨-, hsr⟩ := inner_occurrence hletter hblank hM hs hstops hd
      obtain ⟨e, he⟩ := hend
      refine absurd ?_ hs
      refine ⟨activityColon ++ e, N.toList ++ b, ?_⟩
      rw [hsr, ← he, enteringActivity]
      simp
  · rintro ⟨hend, b, rfl⟩
    exact ⟨hend, p, b, by simp⟩

/-- A line that reports entering `M` contains the phrase with the name `N` behind it
when `N` begins the name `M`, and when the line straddles. -/
theorem matches_iff (hletter : ∀ c ∈ entering, letter c) (hblank : letter ' ' = false)
    (hM : ∀ c ∈ M.toList, letter c) (hN : ∀ c ∈ N.toList, letter c) {text : List Char}
    (hline : Reports letter M text) :
    enteringActivity ++ N.toList <:+: text ↔ N.toList <+: M.toList ∨ Straddles M N text := by
  obtain ⟨p, s, rfl, hp, hs, hstops⟩ := hline
  rw [straddles_iff hletter hblank hM hp hs hstops]
  constructor
  · rintro ⟨a, b, hab⟩
    have hocc : a ++ (enteringActivity ++ (N.toList ++ b)) =
        p ++ (enteringActivity ++ (M.toList ++ s)) := by simpa using hab
    rcases enteringActivity_unrepeated.occurrence hp hocc with heq | ⟨d, hd⟩
    · exact .inl (initial_run hM hN hstops heq)
    · obtain ⟨hend, hsr⟩ := inner_occurrence hletter hblank hM hs hstops hd
      exact .inr ⟨hend, b, by rw [hsr, List.append_assoc]⟩
  · rintro (⟨b, hb⟩ | ⟨⟨d, hd⟩, b, hb⟩)
    · exact ⟨p, b ++ s, by simp [← hb]⟩
    · exact ⟨p ++ enteringActivity ++ d, b, by simp [← hb, ← hd, enteringActivity]⟩

end Lines

/-! ## The condition on the drained events -/

/-- The drained events report entering `M`, each line that mentions the phrase does, and
the heartbeat names another activity than `N`. -/
structure EntryLog (letter : Char → Bool) (N M : String) (events : List SimToServer)
    (activity : String) : Prop where
  name : ∀ c ∈ N.toList, letter c
  entered : ∀ c ∈ M.toList, letter c
  mentioned : ∃ event ∈ events, strContains (logText event) enteringActivity = true
  reports : ∀ event ∈ events, strContains (logText event) enteringActivity = true →
    Reports letter M (logText event)
  heartbeat : activity ≠ N

namespace EntryLog

variable {letter : Char → Bool} {N M : String} {events : List SimToServer} {activity : String}

theorem matched_iff_line (h : EntryLog letter N M events activity)
    (generation : Option UInt64) (readerPage : Int32) :
    observeUntilMatched none none (some N) none events generation activity readerPage = true ↔
      ∃ event ∈ events, enteringActivity ++ N.toList <:+: logText event := by
  simp [observeUntilMatched, h.heartbeat, strContains, toList_enteringActivity]

/-- A line that contains the phrase with a name behind it mentions the phrase. -/
theorem reports_of_infix (h : EntryLog letter N M events activity) {event : SimToServer}
    (hevent : event ∈ events) (hline : enteringActivity ++ N.toList <:+: logText event) :
    Reports letter M (logText event) := by
  have hphrase : enteringActivity <:+: logText event :=
    (List.prefix_append enteringActivity N.toList).isInfix.trans hline
  exact h.reports event hevent (decide_eq_true hphrase)

/-- What ends the wait: a name that begins `M`, or a line that straddles. -/
theorem matched_iff (hletter : ∀ c ∈ entering, letter c) (hblank : letter ' ' = false)
    (h : EntryLog letter N M events activity) (generation : Option UInt64) (readerPage : Int32) :
    observeUntilMatched none none (some N) none events generation activity readerPage = true ↔
      N.toList <+: M.toList ∨ ∃ event ∈ events, Straddles M N (logText event) := by
  rw [h.matched_iff_line]
  constructor
  · rintro ⟨event, hevent, hline⟩
    have hreports := h.reports_of_infix hevent hline
    rcases (matches_iff hletter hblank h.entered h.name hreports).mp hline with hpre | hstraddle
    · exact .inl hpre
    · exact .inr ⟨event, hevent, hstraddle⟩
  · rintro (hpre | ⟨event, hevent, hstraddle⟩)
    · obtain ⟨event, hevent, hmention⟩ := h.mentioned
      have hreports := h.reports event hevent hmention
      exact ⟨event, hevent, (matches_iff hletter hblank h.entered h.name hreports).mpr (.inl hpre)⟩
    · have hphrase : enteringActivity <:+: logText event :=
        (List.prefix_append _ _).isInfix.trans hstraddle.2
      have hreports := h.reports event hevent (decide_eq_true hphrase)
      exact ⟨event, hevent,
        (matches_iff hletter hblank h.entered h.name hreports).mpr (.inr hstraddle)⟩

end EntryLog

/-- **Waiting for one activity.** Whatever the letters are, among them those of
`Entering` and not the blank: the events that report entering `M` end a wait for `N`
exactly when `N` is `M`, if and only if `N` is `M`, or `N` does not begin the name `M`
and no line straddles. -/
theorem observeUntilMatched_activity_iff {letter : Char → Bool}
    (hletter : ∀ c ∈ entering, letter c) (hblank : letter ' ' = false) {N M : String}
    {events : List SimToServer} {activity : String} (h : EntryLog letter N M events activity)
    (generation : Option UInt64) (readerPage : Int32) :
    (observeUntilMatched none none (some N) none events generation activity readerPage = true ↔
        N = M) ↔
      N = M ∨ (¬ N.toList <+: M.toList ∧ ¬ ∃ event ∈ events, Straddles M N (logText event)) := by
  rw [h.matched_iff hletter hblank]
  constructor
  · intro hexact
    by_cases hNM : N = M
    · exact .inl hNM
    · exact .inr (not_or.mp fun hmatched => hNM (hexact.mp hmatched))
  · rintro (rfl | ⟨hpre, hstraddle⟩)
    · exact iff_of_true (.inl List.prefix_rfl) rfl
    · refine iff_of_false (not_or.mpr ⟨hpre, hstraddle⟩) ?_
      rintro rfl
      exact hpre List.prefix_rfl

/-- One drained line, written by the firmware when it enters `activity`. -/
def entryEvents (activity : String) : List SimToServer :=
  [{ payload := some (.log { component := "ACT", text := "Entering activity: " ++ activity }) }]

theorem reports_entry {letter : Char → Bool} {M : String} {event : SimToServer}
    (hevent : event ∈ entryEvents M) : Reports letter M (logText event) := by
  obtain rfl := List.mem_singleton.mp hevent
  refine ⟨[], [], ?_, by decide, by decide, by rintro c ⟨⟩⟩
  simp [logText, toList_enteringActivity]

theorem entryLog_entry {letter : Char → Bool} {N M activity : String}
    (hN : ∀ c ∈ N.toList, letter c) (hM : ∀ c ∈ M.toList, letter c) (hbeat : activity ≠ N) :
    EntryLog letter N M (entryEvents M) activity where
  name := hN
  entered := hM
  mentioned := by
    refine ⟨_, List.mem_singleton_self _, decide_eq_true ⟨[], M.toList, ?_⟩⟩
    simp [logText, toList_enteringActivity]
  reports _ hevent _ := reports_entry hevent
  heartbeat := hbeat

/-- A wait for the home screen goes on when the reader's menu is entered. -/
theorem observeUntilMatched_activity_home :
    observeUntilMatched none none (some "Home") none (entryEvents "EpubReaderMenu") none
        "EpubReader" 0 = true ↔ "Home" = "EpubReaderMenu" := by
  have hentry : EntryLog Char.isAlphanum "Home" "EpubReaderMenu" (entryEvents "EpubReaderMenu")
      "EpubReader" :=
    entryLog_entry (List.all_eq_true.mp (by decide)) (List.all_eq_true.mp (by decide)) (by decide)
  have hletter : ∀ c ∈ entering, Char.isAlphanum c := List.all_eq_true.mp (by decide)
  exact (observeUntilMatched_activity_iff hletter (by decide) hentry none 0).mpr
    (.inr ⟨by decide, by decide⟩)

/-- The line that reports entering the reader's menu ends a wait for the reader. -/
theorem observeUntilMatched_epubReaderMenu :
    EntryLog Char.isAlphanum "EpubReader" "EpubReaderMenu" (entryEvents "EpubReaderMenu") "Home" ∧
      ¬ (observeUntilMatched none none (some "EpubReader") none (entryEvents "EpubReaderMenu")
        none "Home" 0 = true ↔ "EpubReader" = "EpubReaderMenu") := by
  refine ⟨?_, by decide⟩
  exact entryLog_entry (List.all_eq_true.mp (by decide)) (List.all_eq_true.mp (by decide))
    (by decide)

end CsmProxy
