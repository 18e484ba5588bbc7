import Mathlib.Data.List.Basic
import Mathlib.Tactic.Common

/-!
# Unix paths

A path is its text.  `join` is how a path is extended, and `resolve` is what the text
names once `.` and `..` are resolved, without looking at the file system: whether it
starts at the root, and the names on the way, the last one first.

* `resolve_join_name`, `resolve_join_dot` and `resolve_join_dotDot` — what joining a
  path with one component comes to;
* `Resolved.child_inj` — a file determines its directory and its name.
-/

namespace UnixPath

/-- A path as it is written. -/
abbrev Path : Type := List Char

/-- `Path::join`: an absolute path replaces the base. -/
def join (base p : Path) : Path :=
  if p.head? = some '/' then p
  else if base = [] ∨ base.getLast? = some '/' then base ++ p
  else base ++ '/' :: p

/-- The component of the directory itself. -/
def dot : List Char := ['.']

/-- The component of the directory above. -/
def dotDot : List Char := ['.', '.']

/-- The components of a path; empty ones and `.` do not count. -/
def components (p : Path) : List (List Char) :=
  (p.splitOn '/').filter fun part => part ≠ [] ∧ part ≠ dot

/-- A path from the root. -/
def isAbsolute (p : Path) : Bool := p.head? = some '/'

/-- What a path names: the names of the way to it, the last one first. -/
structure Resolved where
  absolute : Bool
  names : List (List Char)
  deriving DecidableEq

namespace Resolved

/-- The entry of a directory with a given name. -/
def child (dir : Resolved) (name : List Char) : Resolved := { dir with names := name :: dir.names }

/-- The parent of a directory: the root is its own parent, and `..` stands for itself where
nothing is known to be above. -/
def parent (dir : Resolved) : Resolved :=
  match dir.names with
  | [] => if dir.absolute then dir else dir.child dotDot
  | name :: names => if name = dotDot then dir.child dotDot else { dir with names := names }

/-- Follow one component. -/
def follow (dir : Resolved) (part : List Char) : Resolved :=
  if part = dotDot then dir.parent else dir.child part

theorem child_inj {dir dir' : Resolved} {name name' : List Char} :
    dir.child name = dir'.child name' ↔ dir = dir' ∧ name = name' := by
  obtain ⟨absolute, names⟩ := dir
  obtain ⟨absolute', names'⟩ := dir'
  simp only [child, Resolved.mk.injEq, List.cons.injEq]
  tauto

theorem parent_child {dir : Resolved} {name : List Char} (h : name ≠ dotDot) :
    (dir.child name).parent = dir := by
  simp [child, parent, h]

end Resolved

/-- What a path names. -/
def resolve (p : Path) : Resolved := (components p).foldl Resolved.follow ⟨isAbsolute p, []⟩

/-- A component that names an entry of a directory. -/
structure IsName (name : List Char) : Prop where
  ne_nil : name ≠ []
  ne_dot : name ≠ dot
  ne_dotDot : name ≠ dotDot
  no_slash : '/' ∉ name

/-- A direct child of a directory. -/
def IsChildOf (p dir : Path) : Prop := ∃ name, IsName name ∧ resolve p = (resolve dir).child name

variable {base p : Path} {name : List Char}

theorem head?_ne_slash (h : '/' ∉ name) : name.head? ≠ some '/' :=
  fun hhead => h (List.mem_of_head? hhead)

theorem components_join (h : p.head? ≠ some '/') :
    components (join base p) = components base ++ components p := by
  rw [join, if_neg h]
  split
  · rename_i hbase
    rcases hbase with rfl | hslash
    · simp [components]
    · obtain ⟨front, rfl⟩ := List.getLast?_eq_some_iff.1 hslash
      rw [components, components, components, List.append_assoc, List.singleton_append,
        List.splitOn_append_cons_self, List.splitOn_append_cons_self]
      simp
  · rw [components, List.splitOn_append_cons_self, List.filter_append]
    rfl

theorem isAbsolute_join (h : p.head? ≠ some '/') : isAbsolute (join base p) = isAbsolute base := by
  rw [join, if_neg h, isAbsolute, isAbsolute]
  cases base with
  | nil => simp [h]
  | cons c base =>
    split
    · rfl
    · rfl

/-- Joining a path with one component. -/
theorem resolve_join_of_components {part : List Char} (h : p.head? ≠ some '/')
    (hp : components p = [part]) : resolve (join base p) = (resolve base).follow part := by
  rw [resolve, components_join h, isAbsolute_join h, hp, List.foldl_append]
  rfl

theorem components_of_no_slash (h : '/' ∉ name) (hnil : name ≠ []) (hdot : name ≠ dot) :
    components name = [name] := by
  rw [components, List.splitOn_eq_singleton h]
  simp [hnil, hdot]

/-- **A name is an entry of the directory it is joined to.** -/
theorem resolve_join_name (h : IsName name) :
    resolve (join base name) = (resolve base).child name := by
  rw [resolve_join_of_components (head?_ne_slash h.no_slash)
    (components_of_no_slash h.no_slash h.ne_nil h.ne_dot), Resolved.follow, if_neg h.ne_dotDot]

theorem resolve_join_dot : resolve (join base dot) = resolve base := by
  have hdot : dot.head? ≠ some '/' := by decide
  have hnone : components dot = [] := by
    rw [components, List.splitOn_eq_singleton (by decide)]
    simp
  rw [resolve, components_join hdot, isAbsolute_join hdot, hnone, List.append_nil, resolve]

theorem resolve_join_dotDot : resolve (join base dotDot) = (resolve base).parent := by
  have hself : components dotDot = [dotDot] :=
    components_of_no_slash (by decide) (by decide) (by decide)
  rw [resolve_join_of_components (by decide) hself, Resolved.follow, if_pos rfl]

end UnixPath
