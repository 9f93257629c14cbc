import Coaty.Db.Postgres.JsonpathValues
import Coaty.Db.Postgres.Quoting
import Coaty.Template

/-!
# Parameters in SQL text

Where the database server finds parameters in SQL text: outside of string constants and quoted identifiers, and not within a word. Text that is put together from templates is split piece by piece, since no fixed text of a template ends within a word or a constant.
-/

namespace Coaty

namespace Postgres

open Js Lexing

inductive SqlPiece where
  | raw (text : Text)
  | placeholder (index : Nat)

namespace SqlPiece

def fill (slot : Nat → Text) : SqlPiece → Text
  | raw text => text
  | placeholder index => slot index

def index? : SqlPiece → Option Nat
  | raw _ => none
  | placeholder index => some index

end SqlPiece

def isWordStart (c : UInt16) : Bool :=
  (unit 'a' ≤ c && c ≤ unit 'z') || (unit 'A' ≤ c && c ≤ unit 'Z') || c = unit '_' || 128 ≤ c

def isWordPart (c : UInt16) : Bool := isWordStart c || isDigit c || c = unit '$'

/-- A piece that ends where the rest begins. -/
def rawUpTo (s rest : Text) : Option SqlPiece × Text := (some (.raw (s.take (s.length - rest.length))), rest)

/-- A string constant, a quoted identifier, a parameter, a word or a single character. Comments and quotes between dollars are left out. -/
def readSqlPiece (rules : SqlRules) : Reader UInt16 SqlPiece
  | [] => none
  | c :: s =>
    if c = singleQuote then (betweenQuotes singleQuote s).map fun (_, rest) => rawUpTo (c :: s) rest
    else if (c = unit 'E' || c = unit 'e') && s.head? = some singleQuote then
      (betweenEscapeQuotes rules s.tail).map fun (_, rest) => rawUpTo (c :: s) rest
    else if c = doubleQuote then (betweenQuotes doubleQuote s).map fun (_, rest) => rawUpTo (c :: s) rest
    else if c = unit '$' then
      if s.head?.any isDigit then some (some (.placeholder (digitsValue (s.takeWhile isDigit))), s.dropWhile isDigit)
      else none
    else if isWordStart c then some (some (.raw (c :: s.takeWhile isWordPart)), s.dropWhile isWordPart)
    else some (some (.raw [c]), s)

def sqlPieces (rules : SqlRules) : Text → Option (List SqlPiece) := split (readSqlPiece rules)

/-! ### Texts that are whole pieces -/

/-- Whatever the text is followed by, it is split first, and no parameter is found in it. -/
def Whole (rules : SqlRules) (s : Text) : Prop :=
  ∃ raws : List Text, raws.flatten = s ∧
    ∀ rest, sqlPieces rules (s ++ rest) = (sqlPieces rules rest).map fun pieces => raws.map .raw ++ pieces

variable {rules : SqlRules} {s t : Text}

theorem whole_nil : Whole rules [] := by
  refine ⟨[], rfl, fun rest => ?_⟩
  simp

theorem Whole.append (hs : Whole rules s) (ht : Whole rules t) : Whole rules (s ++ t) := by
  obtain ⟨raws, rfl, hs⟩ := hs
  obtain ⟨raws', rfl, ht⟩ := ht
  refine ⟨raws ++ raws', List.flatten_append, fun rest => ?_⟩
  rw [List.append_assoc, hs, ht, Option.map_map, List.map_append]
  congr 1
  funext pieces
  simp

theorem Whole.cons_piece {piece : Text} (hpiece : piece ≠ [])
    (hread : ∀ rest, readSqlPiece rules (piece ++ (s ++ rest)) = some (some (.raw piece), s ++ rest)) (hs : Whole rules s) :
    Whole rules (piece ++ s) := by
  obtain ⟨raws, rfl, hs⟩ := hs
  refine ⟨piece :: raws, List.flatten_cons, fun rest => ?_⟩
  have htakes : Takes (readSqlPiece rules) piece (some (.raw piece)) (raws.flatten ++ rest) := ⟨hread rest, hpiece⟩
  rw [List.append_assoc, sqlPieces, htakes.split]
  show (sqlPieces rules (raws.flatten ++ rest)).map _ = _
  rw [hs, Option.map_map]
  rfl

theorem rawUpTo_append (s rest : Text) : rawUpTo (s ++ rest) rest = (some (.raw s), rest) := by
  rw [rawUpTo, List.length_append, Nat.add_sub_cancel_right, List.take_left]

/-! ### Plain text -/

def isPlainUnit (c : UInt16) : Bool := c ≠ singleQuote && c ≠ doubleQuote && c ≠ unit '$'

/-- A text without quotes and dollars that does not end within a word. -/
def isPlain (s : Text) : Bool := s.all isPlainUnit && s.getLast?.all fun c => !isWordPart c

theorem isPlain_append_right (h : isPlain (s ++ t) = true) : isPlain t = true := by
  simp only [isPlain, List.all_append, Bool.and_eq_true] at h ⊢
  refine ⟨h.1.2, ?_⟩
  cases t with
  | nil => rfl
  | cons c t =>
    rw [List.getLast?_append_of_ne_nil _ (List.cons_ne_nil c t)] at h
    exact h.2

theorem isWordPart_of_isWordStart {c : UInt16} (hc : isWordStart c = true) : isWordPart c = true := by
  rw [isWordPart, hc]
  rfl

theorem readSqlPiece_other {c : UInt16} (hplain : isPlainUnit c = true) (hword : isWordStart c = false) (s : Text) :
    readSqlPiece rules (c :: s) = some (some (.raw [c]), s) := by
  have hE : c ≠ unit 'E' := by
    rintro rfl
    exact absurd hword (by decide)
  have he : c ≠ unit 'e' := by
    rintro rfl
    exact absurd hword (by decide)
  simp only [isPlainUnit, Bool.and_eq_true, decide_eq_true_eq, ne_eq] at hplain
  simp [readSqlPiece, hplain, hE, he, hword]

theorem readSqlPiece_word {c : UInt16} (hplain : isPlainUnit c = true) (hword : isWordStart c = true)
    (hs : s.head? ≠ some singleQuote) :
    readSqlPiece rules (c :: s) = some (some (.raw (c :: s.takeWhile isWordPart)), s.dropWhile isWordPart) := by
  simp only [isPlainUnit, Bool.and_eq_true, decide_eq_true_eq, ne_eq] at hplain
  simp [readSqlPiece, hplain, hword, hs]

theorem exists_behind_word {c : UInt16} (hc : isWordPart c = true) (hlast : ((c :: s).getLast?.all fun c => !isWordPart c) = true) :
    ∃ word d behind, s = word ++ d :: behind ∧ (∀ x ∈ word, isWordPart x = true) ∧ isWordPart d = false := by
  cases hbehind : s.dropWhile isWordPart with
  | nil =>
    have hall : ∀ x ∈ c :: s, isWordPart x = true :=
      List.forall_mem_cons.mpr ⟨hc, List.dropWhile_eq_nil_iff.mp hbehind⟩
    rw [List.getLast?_eq_some_getLast (List.cons_ne_nil c s), Option.all_some, hall _ (List.getLast_mem _)] at hlast
    cases hlast
  | cons d behind =>
    refine ⟨s.takeWhile isWordPart, d, behind, ?_, ?_, ?_⟩
    · rw [← hbehind, List.takeWhile_append_dropWhile]
    · exact fun x hx => List.mem_takeWhile_imp hx
    · have hne : s.dropWhile isWordPart ≠ [] := by
        rw [hbehind]
        exact List.cons_ne_nil d behind
      have hhead := List.head_dropWhile_not isWordPart hne
      simpa [hbehind] using hhead

theorem whole_of_isPlain (h : isPlain s = true) : Whole rules s := by
  induction hlength : s.length using Nat.strong_induction_on generalizing s with
  | _ n ih =>
    subst hlength
    cases s with
    | nil => exact whole_nil
    | cons c s =>
      have hrest : isPlain s = true := @isPlain_append_right [c] s h
      simp only [isPlain, List.all_cons, Bool.and_eq_true] at h
      obtain ⟨⟨hplain, hall⟩, hlast⟩ := h
      cases hword : isWordStart c with
      | false =>
        have hs : Whole rules s := ih s.length (Nat.lt_succ_self _) hrest rfl
        exact Whole.cons_piece (List.cons_ne_nil c []) (fun rest => readSqlPiece_other hplain hword _) hs
      | true =>
        obtain ⟨word, d, behind, rfl, hwords, hd⟩ := exists_behind_word (isWordPart_of_isWordStart hword) hlast
        have hbehind : Whole rules (d :: behind) := by
          refine ih (d :: behind).length ?_ (isPlain_append_right hrest) rfl
          simp only [List.length_cons, List.length_append]
          omega
        refine Whole.cons_piece (List.cons_ne_nil c word) (fun rest => ?_) hbehind
        have hhead : (word ++ (d :: behind ++ rest)).head? ≠ some singleQuote := by
          intro hquote
          have hmem : singleQuote ∈ word ++ d :: behind := by
            cases word with
            | nil =>
              have hd' : d = singleQuote := by simpa using hquote
              simp [hd']
            | cons x word =>
              have hx : x = singleQuote := by simpa using hquote
              simp [hx]
          exact absurd (List.all_eq_true.mp hall singleQuote hmem) (by decide)
        rw [List.cons_append, readSqlPiece_word hplain hword hhead, List.takeWhile_append_of_pos hwords,
          List.dropWhile_append_of_pos hwords, List.cons_append, List.takeWhile_cons_of_neg (by simp [hd]),
          List.dropWhile_cons_of_neg (by simp [hd]), List.append_nil]

/-- A text of whole pieces that begins with something else than a quote, so that a constant in front of it ends there. -/
structure Closing (rules : SqlRules) (s : Text) : Prop where
  whole : Whole rules s
  head : ∃ c ∈ s.head?, c ≠ singleQuote

theorem closing_append (ht : isPlain t = true) (hne : t ≠ []) (hs : Whole rules s) : Closing rules (t ++ s) := by
  refine ⟨(whole_of_isPlain ht).append hs, ?_⟩
  obtain ⟨c, t, rfl⟩ := List.exists_cons_of_ne_nil hne
  refine ⟨c, rfl, ?_⟩
  rintro rfl
  simp only [isPlain, List.all_cons, Bool.and_eq_true] at ht
  exact absurd ht.1.1 (by decide)

theorem closing_of_isPlain (ht : isPlain t = true) (hne : t ≠ []) : Closing rules t := by
  have h := @closing_append rules _ _ ht hne whole_nil
  rwa [List.append_nil] at h

/-! ### Constants -/

theorem head?_append_of_mem {c : UInt16} (hc : c ∈ s.head?) (rest : Text) : (s ++ rest).head? = some c := by
  rw [List.head?_append, Option.mem_def.mp hc, Option.some_or]

theorem Closing.head?_append_ne (hs : Closing rules s) (rest : Text) : (s ++ rest).head? ≠ some singleQuote := by
  obtain ⟨c, hc, hne⟩ := hs.head
  rw [head?_append_of_mem hc]
  simpa using hne

theorem whole_constant (x : Text) (hs : Closing rules s) :
    Whole rules (singleQuote :: doubled singleQuote x ++ [singleQuote] ++ s) := by
  refine Whole.cons_piece (by simp) (fun rest => ?_) hs.whole
  have hquoted := betweenQuotes_doubled singleQuote x (hs.head?_append_ne rest)
  have htext : singleQuote :: doubled singleQuote x ++ [singleQuote] ++ (s ++ rest) =
      singleQuote :: (doubled singleQuote x ++ singleQuote :: (s ++ rest)) := by simp
  have hread : readSqlPiece rules (singleQuote :: (doubled singleQuote x ++ singleQuote :: (s ++ rest))) =
      some (rawUpTo (singleQuote :: (doubled singleQuote x ++ singleQuote :: (s ++ rest))) (s ++ rest)) := by
    rw [readSqlPiece, if_pos rfl, hquoted]
    rfl
  rw [htext, hread, ← htext, rawUpTo_append]

theorem whole_escapeString (x : Text) (hs : Closing rules s) :
    Whole rules (unit 'E' :: singleQuote :: escaped x ++ [singleQuote] ++ s) := by
  refine Whole.cons_piece (by simp) (fun rest => ?_) hs.whole
  have hquoted := betweenEscapeQuotes_escaped rules x (hs.head?_append_ne rest)
  have htext : unit 'E' :: singleQuote :: escaped x ++ [singleQuote] ++ (s ++ rest) =
      unit 'E' :: singleQuote :: (escaped x ++ singleQuote :: (s ++ rest)) := by simp
  have hread : readSqlPiece rules (unit 'E' :: singleQuote :: (escaped x ++ singleQuote :: (s ++ rest))) =
      some (rawUpTo (unit 'E' :: singleQuote :: (escaped x ++ singleQuote :: (s ++ rest))) (s ++ rest)) := by
    have hE : unit 'E' ≠ singleQuote := by decide
    rw [readSqlPiece, if_neg hE, if_pos (by simp), List.tail_cons, hquoted]
    rfl
  rw [htext, hread, ← htext, rawUpTo_append]

theorem whole_asLiteral (x : Text) (hs : Closing rules s) : Whole rules (asLiteral x ++ s) := by
  by_cases hbackslash : backslash ∈ x
  · have htext : asLiteral x ++ s = text " " ++ (unit 'E' :: singleQuote :: escaped x ++ [singleQuote] ++ s) := by
      simp [asLiteral, hbackslash, escaped, Js.text]
    rw [htext]
    exact (whole_of_isPlain (by decide)).append (whole_escapeString x hs)
  · have htext : asLiteral x ++ s = singleQuote :: doubled singleQuote x ++ [singleQuote] ++ s := by
      rw [← escaped_eq_doubled hbackslash]
      simp [asLiteral, hbackslash, escaped]
    rw [htext]
    exact whole_constant x hs

/-! ### Parameters -/

theorem sqlPieces_placeholder (index : Nat) {rest : Text} (hrest : EndsDigits rest) :
    sqlPieces rules (text "$" ++ decimal index ++ rest) =
      (sqlPieces rules rest).map fun pieces => .placeholder index :: pieces := by
  have hdigits : ∀ c ∈ decimal index, isDigit c = true := fun c hc => isDigit_of_mem_decimal hc
  have hdollar : text "$" = [unit '$'] := by decide
  have hne : unit '$' ≠ singleQuote ∧ unit '$' ≠ doubleQuote ∧ unit '$' ≠ unit 'E' ∧ unit '$' ≠ unit 'e' := by decide
  have hread : readSqlPiece rules (unit '$' :: (decimal index ++ rest)) = some (some (.placeholder index), rest) := by
    simp [-List.head?_append, readSqlPiece, hne, head?_any_isDigit (decimal_ne_nil index) hdigits,
      takeWhile_digits hdigits hrest, dropWhile_digits hdigits hrest, digitsValue_decimal]
  have htakes : Takes (readSqlPiece rules) (unit '$' :: decimal index) (some (.placeholder index)) rest :=
    ⟨hread, List.cons_ne_nil _ _⟩
  rw [hdollar]
  exact htakes.split

/-- In the one text the parameters stand as placeholders that are numbered from `start` on, in the other one the literals do. -/
def LinesUp (rules : SqlRules) (start : Nat) (literals : List Text) (s s' : Text) : Prop :=
  ∃ pieces : List SqlPiece,
    (∀ rest, sqlPieces rules (s ++ rest) = (sqlPieces rules rest).map fun more => pieces ++ more) ∧
    pieces.filterMap SqlPiece.index? = List.range' start literals.length ∧
    ∀ slot : Nat → Text, (∀ i (hi : i < literals.length), slot (start + i) = literals[i]) →
      pieces.flatMap (SqlPiece.fill slot) = s'

variable {start : Nat} {literals more : List Text} {s' t' : Text}

theorem filterMap_raws (raws : List Text) : (raws.map SqlPiece.raw).filterMap SqlPiece.index? = [] := by
  rw [List.filterMap_map]
  exact List.filterMap_eq_nil_iff.mpr fun _ _ => rfl

theorem flatMap_raws (slot : Nat → Text) (raws : List Text) :
    (raws.map SqlPiece.raw).flatMap (SqlPiece.fill slot) = raws.flatten := by
  rw [List.flatMap_map]
  exact List.flatMap_id

theorem Whole.linesUp (hs : Whole rules s) : LinesUp rules start [] s s := by
  obtain ⟨raws, rfl, hs⟩ := hs
  exact ⟨raws.map .raw, hs, filterMap_raws raws, fun slot _ => flatMap_raws slot raws⟩

theorem LinesUp.append (hs : LinesUp rules start literals s s')
    (ht : LinesUp rules (start + literals.length) more t t') : LinesUp rules start (literals ++ more) (s ++ t) (s' ++ t') := by
  obtain ⟨pieces, hs, hindices, hfill⟩ := hs
  obtain ⟨pieces', ht, hindices', hfill'⟩ := ht
  refine ⟨pieces ++ pieces', fun rest => ?_, ?_, fun slot hslot => ?_⟩
  · rw [List.append_assoc, hs, ht, Option.map_map]
    congr 1
    funext tokens
    simp
  · rw [List.filterMap_append, hindices, hindices', List.range'_append_1, List.length_append]
  · rw [List.flatMap_append, hfill slot ?_, hfill' slot ?_]
    · intro i hi
      have h := hslot (literals.length + i) (by simpa using hi)
      simpa [Nat.add_assoc] using h
    · intro i hi
      have h := hslot i (by rw [List.length_append]; omega)
      rwa [List.getElem_append_left hi] at h

theorem linesUp_placeholder (literal : Text) (hs : Whole rules s) (hhead : ∃ c ∈ s.head?, isDigit c = false) :
    LinesUp rules start [literal] (text "$" ++ decimal start ++ s) (literal ++ s) := by
  obtain ⟨raws, rfl, hs⟩ := hs
  refine ⟨.placeholder start :: raws.map .raw, fun rest => ?_, ?_, fun slot hslot => ?_⟩
  · obtain ⟨c, hc, hdigit⟩ := hhead
    have hends : EndsDigits (raws.flatten ++ rest) := by
      intro d hd
      rw [head?_append_of_mem hc] at hd
      cases hd
      exact hdigit
    rw [List.append_assoc, sqlPieces_placeholder start hends, hs, Option.map_map]
    rfl
  · show start :: (raws.map SqlPiece.raw).filterMap SqlPiece.index? = [start]
    rw [filterMap_raws]
  · rw [List.flatMap_cons, flatMap_raws]
    exact congrArg (· ++ raws.flatten) (hslot 0 Nat.one_pos)

end Postgres

end Coaty
