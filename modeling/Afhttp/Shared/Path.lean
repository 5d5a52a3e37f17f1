import Afhttp.Shared.Text
import Mathlib.Data.List.Basic

/-!
# Paths

`std::path` on Unix, and `shared/path.rs`.  A path is the list of its components; two paths
with the same components are equal, however they are written.

    absoluteLexical leaves no `..`              (parentDir_notMem_absoluteLexical)
    absoluteLexical twice is absoluteLexical    (normalize_absoluteLexical)
-/

namespace Afhttp

inductive Component where
  | curDir
  | parentDir
  | normal (part : String)
  deriving DecidableEq, Repr

/-- `absolute`: the first component is the root. -/
structure PathBuf where
  absolute : Bool
  parts : List Component
  deriving DecidableEq, Repr

namespace PathBuf

def push (p : PathBuf) (part : String) : PathBuf := { p with parts := p.parts ++ [.normal part] }

/-- The root has no parent, and stays. -/
def pop (p : PathBuf) : PathBuf := { p with parts := p.parts.dropLast }

/-- One component of the loop of `absolute_lexical`. -/
def enter (out : PathBuf) : Component → PathBuf
  | .curDir => out
  | .parentDir => out.pop
  | .normal part => out.push part

def fileName (p : PathBuf) : Option String :=
  match p.parts.getLast? with
  | some (.normal part) => some part
  | _ => none

/-- What stands after the last dot of the file name, unless it begins with that dot. -/
def extension (p : PathBuf) : Option String :=
  p.fileName.bind fun name => ((Text.beforeLast '.' name).filter (· ≠ "")).map fun stem =>
    String.ofList (name.toList.drop (stem.toList.length + 1))

/-- The path without its `.` components. -/
def normalize (p : PathBuf) : PathBuf := { p with parts := p.parts.filter (· != .curDir) }

end PathBuf

/-- What `current_dir` gives, or `.` where it fails. -/
structure WorkingDir where
  path : PathBuf
  plain : .parentDir ∉ path.parts
  dot : path.absolute = false → path.parts = [.curDir]

def absoluteLexical (cwd : WorkingDir) (p : PathBuf) : PathBuf :=
  p.parts.foldl PathBuf.enter (if p.absolute then ⟨true, []⟩ else cwd.path)

/-! ## Lemmas -/

namespace PathBuf

@[simp] theorem fileName_push (p : PathBuf) (part : String) : (p.push part).fileName = some part := by
  simp [fileName, push]

theorem enter_absolute (out : PathBuf) (c : Component) : (out.enter c).absolute = out.absolute := by
  cases c <;> rfl

theorem foldl_absolute (parts : List Component) (out : PathBuf) :
    (parts.foldl enter out).absolute = out.absolute := by
  induction parts generalizing out with
  | nil => rfl
  | cons c parts ih => rw [List.foldl_cons, ih, enter_absolute]

theorem foldl_plain (parts : List Component) (out : PathBuf) (h : .parentDir ∉ out.parts) :
    .parentDir ∉ (parts.foldl enter out).parts := by
  induction parts generalizing out with
  | nil => exact h
  | cons c parts ih =>
    rw [List.foldl_cons]
    apply ih
    cases c with
    | curDir => exact h
    | parentDir => exact fun hm => h (List.dropLast_subset _ hm)
    | normal part =>
      intro hm
      rcases List.mem_append.mp hm with hm | hm
      · exact h hm
      · exact absurd (List.mem_singleton.mp hm) (by simp)

/-- Without `..`, the loop appends what is not `.`. -/
theorem foldl_parts (parts : List Component) (out : PathBuf) (h : .parentDir ∉ parts) :
    (parts.foldl enter out).parts = out.parts ++ parts.filter (· != .curDir) := by
  induction parts generalizing out with
  | nil => exact (List.append_nil _).symm
  | cons c parts ih =>
    have htail : .parentDir ∉ parts := fun hm => h (List.mem_cons_of_mem c hm)
    rw [List.foldl_cons, ih _ htail]
    cases c with
    | curDir => rfl
    | parentDir => exact absurd List.mem_cons_self h
    | normal part =>
      show (out.parts ++ [.normal part]) ++ _ = out.parts ++ (.normal part :: _)
      rw [List.append_assoc]
      rfl

end PathBuf

theorem absoluteLexical_absolute (cwd : WorkingDir) (p : PathBuf) :
    (absoluteLexical cwd p).absolute = (p.absolute || cwd.path.absolute) := by
  unfold absoluteLexical
  rw [PathBuf.foldl_absolute]
  cases p.absolute <;> rfl

theorem parentDir_notMem_absoluteLexical (cwd : WorkingDir) (p : PathBuf) :
    .parentDir ∉ (absoluteLexical cwd p).parts := by
  unfold absoluteLexical
  apply PathBuf.foldl_plain
  cases p.absolute with
  | true => exact List.not_mem_nil
  | false => exact cwd.plain

/-- **An absolute path stays what it is**, but for its `.` components. -/
theorem normalize_absoluteLexical (cwd : WorkingDir) (p : PathBuf) :
    (absoluteLexical cwd (absoluteLexical cwd p)).normalize = (absoluteLexical cwd p).normalize := by
  have hparts := PathBuf.foldl_parts (absoluteLexical cwd p).parts
    (if (absoluteLexical cwd p).absolute then ⟨true, []⟩ else cwd.path)
    (parentDir_notMem_absoluteLexical cwd p)
  have habs := absoluteLexical_absolute cwd (absoluteLexical cwd p)
  have hfix : (absoluteLexical cwd (absoluteLexical cwd p)).absolute = (absoluteLexical cwd p).absolute := by
    rw [habs, absoluteLexical_absolute]
    cases p.absolute <;> cases cwd.path.absolute <;> rfl
  unfold PathBuf.normalize
  rw [hfix]
  congr 1
  show List.filter _ ((absoluteLexical cwd p).parts.foldl PathBuf.enter
    (if (absoluteLexical cwd p).absolute then ⟨true, []⟩ else cwd.path)).parts = _
  rw [hparts, List.filter_append, List.filter_filter]
  simp only [Bool.and_self]
  cases hp : (absoluteLexical cwd p).absolute with
  | true => rfl
  | false =>
    -- the working directory is `.`
    rw [absoluteLexical_absolute, Bool.or_eq_false_iff] at hp
    rw [if_neg Bool.false_ne_true, cwd.dot hp.2]
    rfl

end Afhttp
