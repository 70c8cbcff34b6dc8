import Mathlib.Data.List.Basic

/-!
# Unix paths

A path is its text. `place` is where a path leads when `.` and `..` are resolved
lexically: an absolute or relative start, a number of steps up from it, and the names
from there. A path with one more name leads to a child of that place
(`place_push_name`), but `.` and `..` are not names.
-/

namespace CsmProxy.Foundations.UnixPath

abbrev Path := List Char

def dot : Path := ['.']

def dotdot : Path := ['.', '.']

/-- Join a path and another one; an absolute one takes its place. -/
def push (path name : Path) : Path :=
  if name.head? = some '/' then name
  else if path = [] ∨ path.getLast? = some '/' then path ++ name
  else path ++ '/' :: name

/-- What stands between the separators, without the empty pieces and `.`. -/
def components (path : Path) : List Path := (path.splitOn '/').filter fun c => c ≠ [] ∧ c ≠ dot

structure Place where
  absolute : Bool
  ups : Nat
  names : List Path
deriving DecidableEq

namespace Place

/-- The place named `name` below. -/
def child (p : Place) (name : Path) : Place := { p with names := p.names ++ [name] }

/-- Follow one component. Above the root there is nothing but the root. -/
def enter (p : Place) (c : Path) : Place :=
  if c ≠ dotdot then p.child c
  else if p.names ≠ [] then { p with names := p.names.dropLast }
  else if p.absolute then p
  else { p with ups := p.ups + 1 }

end Place

def place (path : Path) : Place :=
  (components path).foldl Place.enter ⟨path.head? = some '/', 0, []⟩

/-- One component that is neither empty nor `.` nor `..`. -/
structure IsName (name : Path) : Prop where
  nonempty : name ≠ []
  noSeparator : '/' ∉ name
  not_dot : name ≠ dot
  not_dotdot : name ≠ dotdot

theorem components_of_noSeparator {name : Path} (h : '/' ∉ name) :
    components name = [name].filter fun c => c ≠ [] ∧ c ≠ dot := by
  rw [components, List.splitOn_eq_singleton h]

theorem components_append (path name : Path) :
    components (path ++ '/' :: name) = components path ++ components name := by
  rw [components, List.splitOn_append_cons_self, List.filter_append]
  rfl

theorem components_push {path name : Path} (h : name.head? ≠ some '/') :
    components (push path name) = components path ++ components name := by
  rw [push, if_neg h]
  split
  · rename_i hend
    rcases hend with rfl | hlast
    · rfl
    · obtain ⟨front, rfl⟩ := List.getLast?_eq_some_iff.mp hlast
      have hfront : components (front ++ ['/']) = components front := by
        have hnil : components [] = [] := rfl
        rw [components_append, hnil, List.append_nil]
      rw [hfront, List.append_assoc, List.singleton_append, components_append]
  · exact components_append path name

theorem head?_push {path name : Path} (h : name.head? ≠ some '/') :
    (push path name).head? = some '/' ↔ path.head? = some '/' := by
  rw [push, if_neg h]
  cases path with
  | nil => simpa using h
  | cons c path => split <;> rfl

theorem place_push {path name : Path} (h : name.head? ≠ some '/') :
    place (push path name) = (components name).foldl Place.enter (place path) := by
  rw [place, components_push h, List.foldl_append, place]
  simp only [head?_push h]

theorem head?_ne_of_noSeparator {name : Path} (h : '/' ∉ name) : name.head? ≠ some '/' :=
  fun hhead => h (List.mem_of_mem_head? hhead)

/-- A name leads to a child. -/
theorem place_push_name {path name : Path} (h : IsName name) :
    place (push path name) = (place path).child name := by
  have hfilter : components name = [name] := by
    rw [components_of_noSeparator h.noSeparator]
    simp [h.nonempty, h.not_dot]
  rw [place_push (head?_ne_of_noSeparator h.noSeparator), hfilter]
  exact if_pos h.not_dotdot

theorem place_push_dot (path : Path) : place (push path dot) = place path :=
  place_push (by decide)

theorem place_push_dotdot (path : Path) :
    place (push path dotdot) = (place path).enter dotdot :=
  place_push (by decide)

/-- The place of `path` is just below that of `parent`. -/
def DirectChild (parent path : Path) : Prop := ∃ name, place path = (place parent).child name

/-- Below a place that has a name, different single components lead to different places. -/
theorem push_inj {path name name' : Path} (hpath : (place path).names ≠ [])
    (h : '/' ∉ name) (hne : name ≠ []) (h' : '/' ∉ name') (hne' : name' ≠ [])
    (heq : place (push path name) = place (push path name')) : name = name' := by
  have hlength : 0 < (place path).names.length := List.length_pos_iff.mpr hpath
  -- `..` goes up, `.` stays, and every other component goes down
  have hdepth : ∀ n, '/' ∉ n → n ≠ [] →
      (n = dotdot ∧ (place (push path n)).names.length + 1 = (place path).names.length) ∨
      (n = dot ∧ (place (push path n)).names.length = (place path).names.length) ∨
      (IsName n ∧ (place (push path n)).names.length = (place path).names.length + 1) := by
    intro n hn hnne
    by_cases hdotdot : n = dotdot
    · subst hdotdot
      refine .inl ⟨rfl, ?_⟩
      rw [place_push_dotdot, Place.enter, if_neg (not_not.mpr rfl), if_pos hpath]
      simp only [List.length_dropLast]
      omega
    · by_cases hdot : n = dot
      · subst hdot
        exact .inr (.inl ⟨rfl, by rw [place_push_dot]⟩)
      · have hname : IsName n := ⟨hnne, hn, hdot, hdotdot⟩
        exact .inr (.inr ⟨hname, by rw [place_push_name hname]; simp [Place.child]⟩)
  have hlen : (place (push path name)).names.length = (place (push path name')).names.length := by
    rw [heq]
  rcases hdepth name h hne with ⟨hn, hd⟩ | ⟨hn, hd⟩ | ⟨hn, hd⟩ <;>
    rcases hdepth name' h' hne' with ⟨hn', hd'⟩ | ⟨hn', hd'⟩ | ⟨hn', hd'⟩
  · exact hn.trans hn'.symm
  · omega
  · omega
  · omega
  · exact hn.trans hn'.symm
  · omega
  · omega
  · omega
  · rw [place_push_name hn, place_push_name hn'] at heq
    have hnames := congrArg Place.names heq
    exact List.singleton_inj.mp (List.append_cancel_left hnames)

end CsmProxy.Foundations.UnixPath
