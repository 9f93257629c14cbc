import Mathlib.Data.List.Range

/-!
# Templates

A template is fixed text with parameters between. It is filled by writing a text in the place of each parameter, such as a numbered placeholder, and the parameters are passed along in the same order. Templates that are joined number their placeholders on from each other.
-/

namespace Template

variable {C P : Type}

inductive Piece (C P : Type) where
  | fixed (text : List C)
  | param (p : P)

open Piece

def params : List (Piece C P) → List P
  | [] => []
  | fixed _ :: pieces => params pieces
  | param p :: pieces => p :: params pieces

/-- The text with the slots of the parameters filled in order. -/
def fill : List (Piece C P) → List (List C) → List C
  | [], _ => []
  | fixed text :: pieces, slots => text ++ fill pieces slots
  | param _ :: pieces, slots => slots.headD [] ++ fill pieces slots.tail

@[simp] theorem params_nil : params ([] : List (Piece C P)) = [] := rfl

@[simp] theorem params_fixed (text : List C) (pieces : List (Piece C P)) :
    params (fixed text :: pieces) = params pieces := rfl

@[simp] theorem params_param (p : P) (pieces : List (Piece C P)) : params (param p :: pieces) = p :: params pieces := rfl

@[simp] theorem params_append (pieces more : List (Piece C P)) :
    params (pieces ++ more) = params pieces ++ params more := by
  induction pieces with
  | nil => rfl
  | cons piece pieces ih => cases piece <;> simp [ih]

@[simp] theorem fill_nil (slots : List (List C)) : fill ([] : List (Piece C P)) slots = [] := rfl

@[simp] theorem fill_fixed (text : List C) (pieces : List (Piece C P)) (slots : List (List C)) :
    fill (fixed text :: pieces) slots = text ++ fill pieces slots := rfl

@[simp] theorem fill_param (p : P) (pieces : List (Piece C P)) (slot : List C) (slots : List (List C)) :
    fill (param p :: pieces) (slot :: slots) = slot ++ fill pieces slots := rfl

theorem fill_append {pieces more : List (Piece C P)} {slots : List (List C)} (h : slots.length = (params pieces).length)
    (others : List (List C)) : fill (pieces ++ more) (slots ++ others) = fill pieces slots ++ fill more others := by
  induction pieces generalizing slots with
  | nil =>
    rw [List.length_eq_zero_iff.mp h]
    rfl
  | cons piece pieces ih =>
    cases piece with
    | fixed text =>
      rw [List.cons_append, fill_fixed, fill_fixed, ih h, List.append_assoc]
    | param p =>
      obtain ⟨slot, slots, rfl⟩ := List.exists_cons_of_length_eq_add_one h
      rw [List.cons_append, List.cons_append, fill_param, fill_param, ih (by simpa using h), List.append_assoc]

/-! ### Numbered placeholders -/

/-- The placeholders for `n` parameters after the first `start` ones. -/
def placeholders (write : Nat → List C) (start n : Nat) : List (List C) :=
  (List.range' (start + 1) n).map write

@[simp] theorem length_placeholders (write : Nat → List C) (start n : Nat) :
    (placeholders write start n).length = n := by
  simp [placeholders]

theorem placeholders_add (write : Nat → List C) (start m n : Nat) :
    placeholders write start (m + n) = placeholders write start m ++ placeholders write (start + m) n := by
  rw [placeholders, placeholders, placeholders, ← List.map_append, show start + m + 1 = start + 1 + m by omega,
    List.range'_append_1]

theorem placeholders_const (text : List C) (start n : Nat) :
    placeholders (fun _ => text) start n = List.replicate n text := by
  rw [placeholders, List.map_const', List.length_range']

end Template
