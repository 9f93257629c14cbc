import Mathlib.Data.List.Basic

/-!
# Splitting a text into tokens

A reader takes one token off the front of a text, or something that only separates tokens. Splitting a text repeats this to its end and fails if the reader does or makes no progress. A text that is put together from chunks is split chunk by chunk, as long as the reader takes each of them off what follows.
-/

namespace Lexing

variable {σ τ : Type}

/-- The token, unless there is none, and the rest of the text. -/
abbrev Reader (σ τ : Type) := List σ → Option (Option τ × List σ)

def split (read : Reader σ τ) : List σ → Option (List τ)
  | [] => some []
  | c :: s =>
    match read (c :: s) with
    | none => none
    | some (token, rest) =>
      if rest.length ≤ s.length then (split read rest).map fun tokens => token.toList ++ tokens else none
termination_by s => s.length

/-- The reader takes the chunk off the front of a text that goes on like this. -/
structure Takes (read : Reader σ τ) (chunk : List σ) (token : Option τ) (rest : List σ) : Prop where
  read : read (chunk ++ rest) = some (token, rest)
  progress : chunk ≠ []

variable {read : Reader σ τ} {chunk rest : List σ} {token : Option τ}

theorem Takes.split (h : Takes read chunk token rest) :
    split read (chunk ++ rest) = (split read rest).map fun tokens => token.toList ++ tokens := by
  obtain ⟨c, chunk, rfl⟩ := List.exists_cons_of_ne_nil h.progress
  have hread := h.read
  rw [List.cons_append] at hread ⊢
  rw [Lexing.split, hread]
  have hprogress : rest.length ≤ (chunk ++ rest).length := by simp
  simp only [if_pos hprogress]

theorem Takes.split_some (h : Takes read chunk token rest) {tokens : List τ} (hrest : Lexing.split read rest = some tokens) :
    Lexing.split read (chunk ++ rest) = some (token.toList ++ tokens) := by
  rw [h.split, hrest, Option.map_some]

end Lexing
