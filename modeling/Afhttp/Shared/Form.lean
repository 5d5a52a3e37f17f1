import Afhttp.Shared.Text
import Mathlib

/-!
# Form pairs

`url::form_urlencoded::parse`: the parts between `&`, empty ones left out, each cut at its first
`=`, name and value decoded.  What decodes one of them is a parameter: it reads `+` and `%` and
leaves every other character as it is (`Form.Plain`).

    a query cut at `&` and put together again        (split_joinWith)
    the pairs of two queries with `&` in between     (parse_append)
-/

namespace Afhttp

open Text

/-- `str::split`. -/
def Text.split (c : Char) (s : String) : List String := (s.toList.splitOn c).map String.ofList

/-- `<[&str]>::join`. -/
def Text.joinWith (c : Char) (parts : List String) : String :=
  String.ofList ([c].intercalate (parts.map String.toList))

/-- What stands behind the first `c`, or nothing. -/
def Text.afterFirst (c : Char) (s : String) : String :=
  String.ofList (s.toList.drop ((beforeFirst c s).toList.length + 1))

/-- How a name or a value is decoded. -/
structure Form where
  decode : String → String

namespace Form

/-- A text without `+` and `%` stands for itself. -/
def Plain (form : Form) : Prop := ∀ s : String, '%' ∉ s.toList → '+' ∉ s.toList → form.decode s = s

def name (part : String) : String := beforeFirst '=' part

def pair (form : Form) (part : String) : String × String :=
  (form.decode (name part), form.decode (afterFirst '=' part))

def parse (form : Form) (query : String) : List (String × String) :=
  ((split '&' query).filter (· ≠ "")).map form.pair

/-! ## Lemmas -/

theorem notMem_of_mem_split {c : Char} {s p : String} (h : p ∈ split c s) : c ∉ p.toList := by
  have core : ∀ (l q : List Char), q ∈ l.splitOn c → c ∉ q := by
    intro l
    induction l with
    | nil => simp
    | cons d l ih =>
      intro q hq
      rw [List.splitOn_cons_eq_if_modifyHead] at hq
      split at hq
      · rcases List.mem_cons.mp hq with rfl | hq
        · simp
        · exact ih q hq
      · next hd =>
        obtain ⟨r, rs, hr⟩ := List.exists_cons_of_ne_nil (List.splitOn_ne_nil c l)
        rw [hr, List.modifyHead_cons] at hq
        rw [hr] at ih
        rcases List.mem_cons.mp hq with rfl | hq
        · have hr' := ih r List.mem_cons_self
          rw [List.mem_cons, not_or]
          exact ⟨fun e => hd (by simp [e]), hr'⟩
        · exact ih q (List.mem_cons_of_mem _ hq)
  obtain ⟨q, hq, rfl⟩ := List.mem_map.mp h
  rw [String.toList_ofList]
  exact core _ q hq

theorem split_joinWith {c : Char} {parts : List String} (h : ∀ p ∈ parts, c ∉ p.toList) (hne : parts ≠ []) :
    split c (joinWith c parts) = parts := by
  unfold split joinWith
  rw [String.toList_ofList, List.splitOn_intercalate]
  · rw [List.map_map]
    exact List.map_id'' (fun s => String.ofList_toList) parts
  · intro l hl
    obtain ⟨p, hp, rfl⟩ := List.mem_map.mp hl
    exact h p hp
  · simpa using hne

theorem split_append (c : Char) (s t : String) :
    split c (s ++ String.ofList [c] ++ t) = split c s ++ split c t := by
  unfold split
  rw [String.toList_append, String.toList_append, String.toList_ofList, List.append_assoc,
    List.singleton_append, List.splitOn_append_cons_self, List.map_append]

theorem parse_append (form : Form) (s t : String) :
    form.parse (s ++ "&" ++ t) = form.parse s ++ form.parse t := by
  unfold parse
  rw [split_append '&' s t, List.filter_append, List.map_append]

theorem parse_empty (form : Form) : form.parse "" = [] := rfl

/-- A pair of the query, and the part that it was read from. -/
theorem mem_parse_iff (form : Form) (query : String) (p : String × String) :
    p ∈ form.parse query ↔ ∃ part ∈ split '&' query, part ≠ "" ∧ form.pair part = p := by
  unfold parse
  simp only [List.mem_map, List.mem_filter, decide_eq_true_eq]
  constructor
  · rintro ⟨part, ⟨h, hne⟩, hp⟩
    exact ⟨part, h, hne, hp⟩
  · rintro ⟨part, h, hne, hp⟩
    exact ⟨part, ⟨h, hne⟩, hp⟩

end Form

end Afhttp
