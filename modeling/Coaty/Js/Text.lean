import Mathlib.Data.List.Basic
import Mathlib.Data.UInt

/-!
# Strings of UTF-16 code units

JavaScript strings are sequences of 16-bit code units, so lengths, indices and comparisons are those of a list of `UInt16`. Literals are ASCII and are written with `text` and `unit`.
-/

namespace Js

abbrev Text := List UInt16

/-- The code unit of an ASCII character. -/
def unit (c : Char) : UInt16 := UInt16.ofNat c.toNat

/-- An ASCII literal. -/
def text (s : String) : Text := s.toList.map unit

/-- A non-empty string, such as an object id. -/
abbrev NonEmptyText := {s : Text // s ≠ []}

instance : LawfulBEq NonEmptyText := inferInstance

/-- The errors that code outside a model's own checks raises. -/
inductive Error where
  | typeError
  | syntaxError
  | rangeError
deriving DecidableEq, Repr

/-- `s || d` on an optional string: `undefined` and the empty string are falsy. -/
def orElse (s : Option Text) (d : Text) : Text :=
  match s with
  | none => d
  | some [] => d
  | some s => s

/-- The string an optional value becomes inside a template or a concatenation. -/
def interpolate (s : Option Text) : Text := s.getD (text "undefined")

theorem orElse_some {s : Text} (h : s ≠ []) (d : Text) : orElse (some s) d = s := by
  cases s with
  | nil => exact absurd rfl h
  | cons c rest => rfl

namespace Text

def indexOf (s : Text) (c : UInt16) : Option Nat := s.idxOf? c

def startsWith (s start : Text) : Bool := start.isPrefixOf s

def split (s : Text) (separator : UInt16) : List Text := s.splitOn separator

theorem startsWith_append (start rest : Text) : (start ++ rest).startsWith start = true := by
  rw [startsWith, List.isPrefixOf_iff_prefix]
  exact List.prefix_append start rest

theorem startsWith_iff {s start : Text} : s.startsWith start = true ↔ ∃ rest, s = start ++ rest := by
  constructor
  · intro h
    rw [startsWith, List.isPrefixOf_iff_prefix] at h
    obtain ⟨rest, h⟩ := h
    exact ⟨rest, h.symm⟩
  · rintro ⟨rest, rfl⟩
    exact startsWith_append start rest

theorem split_append_cons {s : Text} {c : UInt16} (rest : Text) (h : c ∉ s) :
    (s ++ c :: rest).split c = s :: rest.split c :=
  List.splitOn_append_cons_self_of_not_mem h rest

theorem split_of_not_mem {s : Text} {c : UInt16} (h : c ∉ s) : s.split c = [s] :=
  List.splitOn_eq_singleton h

theorem indexOf_of_not_mem {s : Text} {c : UInt16} (h : c ∉ s) : s.indexOf c = none := by
  rw [indexOf, List.idxOf?_eq_none_iff]
  exact h

theorem indexOf_append_cons {s : Text} {c : UInt16} (rest : Text) (h : c ∉ s) :
    (s ++ c :: rest).indexOf c = some s.length := by
  induction s with
  | nil => simp [indexOf, List.idxOf?_cons]
  | cons a s ih =>
    rw [List.mem_cons, not_or] at h
    have hne : (a == c) = false := by simpa using Ne.symm h.1
    have hs := ih h.2
    rw [indexOf] at hs
    rw [indexOf, List.cons_append, List.idxOf?_cons, hne, hs]
    rfl

end Text

end Js
