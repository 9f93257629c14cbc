import Coaty.Js.Text
import Coaty.Order.Insertion
import Mathlib.Algebra.Order.Ring.Rat

/-!
# Binary search and insertion

A search in a range of an array that is in order ends at an element that compares equal, or at the insertion point of the value, which it returns as its bitwise complement. The complement is one of 32 bits. So an insertion point from `2^31` on comes out as an index, and an item is inserted elsewhere.
-/

namespace Js

/-- `ToInt32` -/
def toInt32 (n : Int) : Int := (n + 2 ^ 31) % 2 ^ 32 - 2 ^ 31

/-- `~n` -/
def complement (n : Int) : Int := -toInt32 n - 1

/-- `n >>> 1` -/
def shiftRightOne (n : Int) : Int := n % 2 ^ 32 / 2

/-- The elements of an array, the length of which is an unsigned integer of 32 bits. -/
abbrev ArrayOf (α : Type) := {items : List α // items.length < 2 ^ 32}

/-- `items.splice(start, 0, item)`. It throws a `RangeError` if there is no room left. -/
def splice {α : Type} (items : ArrayOf α) (start : Int) (item : α) : Except Error (ArrayOf α) :=
  let start := (if start < 0 then items.val.length + start else start).toNat
  if h : items.val.length + 1 < 2 ^ 32 then
    .ok ⟨items.val.take start ++ item :: items.val.drop start, by
      rw [(Sorting.perm_insert items.val item start).length_eq]
      exact h⟩
  else .error .rangeError

theorem complement_of_lt {n : Int} (hn : 0 ≤ n) (h : n < 2 ^ 31) : complement n = -n - 1 := by
  rw [complement, toInt32]
  omega

theorem complement_of_ge {n : Int} (hn : 2 ^ 31 ≤ n) (h : n < 2 ^ 32) : complement n = 2 ^ 32 - 1 - n := by
  rw [complement, toInt32]
  omega

theorem complement_of_neg {n : Int} (hn : n < 0) (h : -2 ^ 31 ≤ n) : complement n = -n - 1 := by
  rw [complement, toInt32]
  omega

theorem not_natCast (n : Nat) : ~~~(n : Int) = -n - 1 := by
  show Int.negSucc n = -n - 1
  omega

theorem shiftRightOne_nonneg (n : Int) : 0 ≤ shiftRightOne n := by
  rw [shiftRightOne]
  omega

theorem shiftRightOne_le {n : Int} (h : 0 ≤ n) : shiftRightOne n ≤ n := by
  rw [shiftRightOne]
  omega

end Js

namespace Coaty

namespace BinarySearch

open Js Sorting

variable {α : Type}

/-- What a call throws. -/
inductive Thrown where
  | typeError (message : Text)
  | error (error : Error)
deriving DecidableEq

section Search

variable (source : ArrayOf α) (value : α) (compareFn : α → α → Rat)

/-- `low + ((high - low) >>> 1)` -/
def middle (low high : Int) : Int := low + shiftRightOne (high - low)

theorem middle_mem {low high : Int} (h : low ≤ high) : low ≤ middle low high ∧ middle low high ≤ high := by
  have hnonneg := shiftRightOne_nonneg (high - low)
  have hle := @shiftRightOne_le (high - low) (by omega)
  rw [middle]
  omega

/-- The loop, with what keeps the index inside the array. -/
def searchLoop (low high : Int) (hlow : 0 ≤ low) (hhigh : high < source.val.length) : Int :=
  if h : low ≤ high then
    have hmiddle := middle_mem h
    let i := middle low high
    let cp := compareFn (source.val.get ⟨i.toNat, by omega⟩) value
    if cp = 0 then i
    else if cp < 0 then searchLoop (i + 1) high (by omega) hhigh
    else searchLoop low (i - 1) hlow (by omega)
  else complement low
termination_by (high + 1 - low).toNat

/-- `none` is an index that is not given. -/
def binarySearch (startIndex endIndex : Option Int) : Except Thrown Int :=
  let startIndex := startIndex.getD 0
  let endIndex := endIndex.getD (source.val.length - 1)
  if hstart : startIndex < 0 then .error (.typeError (text "startIndex is out of range"))
  else if hend : endIndex ≥ source.val.length then .error (.typeError (text "endIndex is out of range"))
  else
    let length := endIndex + 1 - startIndex
    .ok (searchLoop source value compareFn startIndex (startIndex + length - 1) (by omega) (by omega))

end Search

def binaryInsert (source : ArrayOf α) (item : α) (compareFn : α → α → Rat) : Except Thrown (ArrayOf α) := do
  let pos ← binarySearch source item compareFn none none
  (splice source (if 0 ≤ pos then pos else complement pos) item).mapError .error

/-! ### What the search ends at -/

/-- How a comparison function orders its arguments. -/
def ordering (compareFn : α → α → Rat) (a b : α) : Ordering := compare (compareFn a b) 0

section Loop

variable {source : ArrayOf α} {value : α} {compareFn : α → α → Rat} {first last : Nat} {low high : Int}

/-- The elements of the part before `low` are smaller than the value, and those after `high` are larger. -/
structure Narrowed (source : ArrayOf α) (value : α) (compareFn : α → α → Rat) (first last : Nat) (low high : Int) : Prop where
  first_le : first ≤ low
  le : low ≤ high + 1
  lt_last : high < last
  smaller : ∀ (i : Nat) a, first ≤ i → i < low → source.val[i]? = some a → ordering compareFn a value = .lt
  larger : ∀ (i : Nat) a, high < i → i < last → source.val[i]? = some a → ordering compareFn a value = .gt

theorem narrowed_of_le (h : first ≤ last) : Narrowed source value compareFn first last first (last - 1) := by
  refine ⟨by omega, by omega, by omega, ?_, ?_⟩
  · intro i a hfirst hlow
    omega
  · intro i a hhigh hlast
    omega

/-- The search ends at an element that compares equal, or at the complement of the insertion point. -/
theorem searchLoop_spec [Std.TransCmp (ordering compareFn)]
    (hsorted : source.val.Pairwise fun a b => (ordering compareFn a b).isLE)
    (hlast : last ≤ source.val.length) (hlow : 0 ≤ low) (hhigh : high < source.val.length)
    (h : Narrowed source value compareFn first last low high) :
    (∃ i a, first ≤ i ∧ i < last ∧ source.val[i]? = some a ∧ ordering compareFn a value = .eq ∧
      searchLoop source value compareFn low high hlow hhigh = i) ∨
    ∃ p, IsInsertionPoint (ordering compareFn) source.val value first last p ∧
      searchLoop source value compareFn low high hlow hhigh = complement p := by
  induction hmeasure : (high + 1 - low).toNat using Nat.strong_induction_on generalizing low high with
  | _ n ih =>
    have hfirst := h.first_le
    have hlt := h.lt_last
    rw [searchLoop]
    by_cases hle : low ≤ high
    · have hmiddle := middle_mem hle
      have hget : source.val[(middle low high).toNat]? = some (source.val.get ⟨(middle low high).toNat, by omega⟩) :=
        List.getElem?_eq_getElem (by omega)
      rw [dif_pos hle]
      simp only
      split
      · rename_i heq
        refine .inl ⟨(middle low high).toNat, _, by omega, by omega, hget, ?_, by omega⟩
        exact compare_eq_iff_eq.mpr heq
      · rename_i hne
        split
        · rename_i hneg
          refine ih _ ?_ _ _ ⟨?_, ?_, hlt, ?_, h.larger⟩ rfl
          · omega
          · omega
          · omega
          · intro i a _ hi ha
            exact lt_of_index_le hsorted (by omega) ha hget (compare_lt_iff_lt.mpr hneg)
        · rename_i hpos
          refine ih _ ?_ _ _ ⟨hfirst, ?_, ?_, h.smaller, ?_⟩ rfl
          · omega
          · omega
          · omega
          · intro i a hi _ ha
            have hgt : 0 < compareFn (source.val.get ⟨(middle low high).toNat, by omega⟩) value :=
              lt_of_le_of_ne (not_lt.mp hpos) (Ne.symm hne)
            exact gt_of_index_le hsorted (by omega) hget ha (compare_gt_iff_gt.mpr hgt)
    · have hclosed := h.le
      rw [dif_neg hle]
      refine .inr ⟨low.toNat, ⟨by omega, by omega, ?_, ?_⟩, ?_⟩
      · intro i a hi hp
        exact h.smaller i a hi (by omega)
      · intro i a hi
        exact h.larger i a (by omega)
      · rw [Int.toNat_of_nonneg hlow]

end Loop

/-! ### Searching and inserting -/

section Specification

variable {source : ArrayOf α} {value item : α} {compareFn : α → α → Rat} {startIndex endIndex : Option Int}
  {first last p : Nat} {result : Int}

/-- The range of indices from `startIndex` to `endIndex` is the one from `first` up to `last`, which is left out. -/
structure IsRange (source : ArrayOf α) (startIndex endIndex : Option Int) (first last : Nat) : Prop where
  start : startIndex.getD 0 = first
  stop : endIndex.getD (source.val.length - 1) + 1 = last
  le : first ≤ last
  le_length : last ≤ source.val.length

/-- The index is one of the range, and its element compares equal to the value. -/
def IsIndexOfEqual (source : ArrayOf α) (value : α) (compareFn : α → α → Rat) (first last : Nat) (result : Int) : Prop :=
  ∃ i a, first ≤ i ∧ i < last ∧ source.val[i]? = some a ∧ ordering compareFn a value = .eq ∧ result = i

def IsComplementOfPoint (source : ArrayOf α) (value : α) (compareFn : α → α → Rat) (first last : Nat) (result : Int) : Prop :=
  ∃ p, (∀ q, IsInsertionPoint (ordering compareFn) source.val value first last q ↔ q = p) ∧ result = ~~~(p : Int)

def Searches (source : ArrayOf α) (value : α) (compareFn : α → α → Rat) (startIndex endIndex : Option Int)
    (first last : Nat) : Prop :=
  ∃ result, binarySearch source value compareFn startIndex endIndex = .ok result ∧
    (IsIndexOfEqual source value compareFn first last result ∨
      IsComplementOfPoint source value compareFn first last result) ∧
    (HasEqual (ordering compareFn) source.val value first last →
      IsIndexOfEqual source value compareFn first last result)

/-- The array is in order afterwards, and the item has been added to its elements. -/
def Inserts (source : ArrayOf α) (item : α) (compareFn : α → α → Rat) : Prop :=
  ∃ items, binaryInsert source item compareFn = .ok items ∧
    (items.val.Pairwise fun a b => (ordering compareFn a b).isLE) ∧ items.val.Perm (item :: source.val)

theorem isRange_default (source : ArrayOf α) : IsRange source none none 0 source.val.length := by
  refine ⟨rfl, ?_, Nat.zero_le _, Nat.le_refl _⟩
  rw [Option.getD_none]
  omega

theorem binarySearch_eq (h : IsRange source startIndex endIndex first last) :
    binarySearch source value compareFn startIndex endIndex =
      .ok (searchLoop source value compareFn first (last - 1) (by omega) (by have := h.le_length; omega)) := by
  have hle := h.le_length
  have hstop : endIndex.getD (source.val.length - 1) = last - 1 := by
    have hstop := h.stop
    omega
  rw [binarySearch]
  simp only [h.start, hstop]
  rw [dif_neg (by omega), dif_neg (by omega)]
  congr 2
  omega

theorem splice_natCast (items : ArrayOf α) (n : Nat) (item : α) (hroom : items.val.length + 1 < 2 ^ 32) :
    ∃ items', splice items n item = .ok items' ∧ items'.val = items.val.take n ++ item :: items.val.drop n := by
  have hstart : (if (n : Int) < 0 then items.val.length + (n : Int) else n).toNat = n := by
    rw [if_neg (by omega), Int.toNat_natCast]
  rw [splice]
  simp only [hstart]
  rw [dif_pos hroom]
  exact ⟨_, rfl, rfl⟩

theorem splice_eq_error (items : ArrayOf α) (start : Int) (item : α) (hfull : ¬items.val.length + 1 < 2 ^ 32) :
    splice items start item = .error .rangeError := by
  rw [splice]
  exact dif_neg hfull

theorem inserts_iff_of_search {pos : Int} {n : Nat} (hsearch : binarySearch source item compareFn none none = .ok pos)
    (hn : (if 0 ≤ pos then pos else complement pos) = n) :
    Inserts source item compareFn ↔ source.val.length + 1 < 2 ^ 32 ∧
      (source.val.take n ++ item :: source.val.drop n).Pairwise fun a b => (ordering compareFn a b).isLE := by
  have hinsert : binaryInsert source item compareFn = (splice source n item).mapError .error := by
    rw [binaryInsert, hsearch, ← hn]
    rfl
  rw [Inserts, hinsert]
  by_cases hroom : source.val.length + 1 < 2 ^ 32
  · obtain ⟨items, hsplice, hitems⟩ := splice_natCast source n item hroom
    rw [hsplice]
    constructor
    · rintro ⟨items', heq, hpairwise, _⟩
      obtain rfl := Except.ok.inj heq
      exact ⟨hroom, hitems ▸ hpairwise⟩
    · rintro ⟨_, hpairwise⟩
      refine ⟨items, rfl, ?_, ?_⟩
      · rw [hitems]
        exact hpairwise
      · rw [hitems]
        exact perm_insert _ _ _
  · rw [splice_eq_error source n item hroom]
    constructor
    · rintro ⟨items, heq, _⟩
      cases heq
    · exact fun h => absurd h.1 hroom

theorem not_pairwise_insert [Std.TransCmp (ordering compareFn)] {q : Nat}
    (hpoint : IsInsertionPoint (ordering compareFn) source.val item 0 source.val.length p)
    (hlt : q < p) :
    ¬(source.val.take q ++ item :: source.val.drop q).Pairwise fun a b => (ordering compareFn a b).isLE := by
  intro hpairwise
  have hle := hpoint.le_last
  have hq : q < source.val.length := by omega
  have hsmaller := hpoint.smaller q source.val[q] (Nat.zero_le q) hlt (List.getElem?_eq_getElem hq)
  rw [List.pairwise_append, List.pairwise_cons, List.drop_eq_getElem_cons hq] at hpairwise
  have hafter := hpairwise.2.1.1 _ List.mem_cons_self
  exact Std.OrientedCmp.not_isLE_of_lt hsmaller hafter

section Sorted

variable [Std.TransCmp (ordering compareFn)] (hsorted : source.val.Pairwise fun a b => (ordering compareFn a b).isLE)

include hsorted

theorem binarySearch_spec (h : IsRange source startIndex endIndex first last) :
    ∃ result, binarySearch source value compareFn startIndex endIndex = .ok result ∧
      (IsIndexOfEqual source value compareFn first last result ∨
        ∃ p, IsInsertionPoint (ordering compareFn) source.val value first last p ∧ result = complement p) := by
  refine ⟨_, binarySearch_eq h, ?_⟩
  obtain ⟨i, a, hfirst, hlast, hget, heq, hresult⟩ | hpoint :=
    searchLoop_spec hsorted h.le_length _ _ (narrowed_of_le h.le)
  · exact .inl ⟨i, a, hfirst, hlast, hget, heq, hresult⟩
  · exact .inr hpoint

theorem searches_iff_of_isRange (h : IsRange source startIndex endIndex first last) :
    Searches source value compareFn startIndex endIndex first last ↔
      ∀ p, IsInsertionPoint (ordering compareFn) source.val value first last p → p < 2 ^ 31 := by
  have hlength := source.property
  have hle := h.le_length
  obtain ⟨result, hsearch, hspec⟩ := @binarySearch_spec _ source value compareFn _ _ _ _ _ hsorted h
  constructor
  · rintro ⟨result', hsearch', hresult, _⟩ p hpoint
    obtain rfl := Except.ok.inj (hsearch.symm.trans hsearch')
    have hnone := hpoint.not_hasEqual
    obtain ⟨i, a, hfirst, hlast, hget, heq, _⟩ | ⟨q, honly, hcomplement⟩ := hresult
    · exact absurd ⟨i, a, hfirst, hlast, hget, heq⟩ hnone
    · obtain ⟨i, a, hfirst, hlast, hget, heq, _⟩ | ⟨p', hpoint', hresult⟩ := hspec
      · exact absurd ⟨i, a, hfirst, hlast, hget, heq⟩ hnone
      · obtain rfl := (honly p').mp hpoint'
        obtain rfl := (honly p).mp hpoint
        by_contra hlarge
        have hp := hpoint.le_last
        have hwrapped := @complement_of_ge p (by omega) (by omega)
        rw [hresult, hwrapped, not_natCast] at hcomplement
        omega
  · intro hsmall
    refine ⟨result, hsearch, ?_, ?_⟩
    · obtain hequal | ⟨p, hpoint, hresult⟩ := hspec
      · exact .inl hequal
      · refine .inr ⟨p, fun q => ⟨fun hq => hq.unique hpoint hle, fun hq => hq ▸ hpoint⟩, ?_⟩
        have hp := hsmall p hpoint
        rw [hresult, complement_of_lt (by omega) (by omega), not_natCast]
    · intro hequal
      obtain hfound | ⟨p, hpoint, _⟩ := hspec
      · exact hfound
      · exact absurd hequal hpoint.not_hasEqual

/-- An item may go before or after one that compares equal. -/
theorem pairwise_insert_of_equal {i : Nat} {a : α} (hget : source.val[i]? = some a)
    (heq : ordering compareFn a item = .eq) :
    (source.val.take i ++ item :: source.val.drop i).Pairwise fun a b => (ordering compareFn a b).isLE := by
  obtain ⟨hi, rfl⟩ := List.getElem?_eq_some_iff.mp hget
  have hsplit := hsorted
  rw [← List.take_append_drop i source.val, List.pairwise_append, List.drop_eq_getElem_cons hi,
    List.pairwise_cons] at hsplit
  obtain ⟨_, hdrop, hacross⟩ := hsplit
  apply pairwise_insert hsorted
  · intro b hb
    rw [Std.TransCmp.congr_right (Std.OrientedCmp.eq_symm heq)]
    exact hacross b hb _ List.mem_cons_self
  · intro b hb
    rw [List.drop_eq_getElem_cons hi] at hb
    rw [← Std.TransCmp.congr_left heq]
    obtain rfl | hb := List.mem_cons.mp hb
    · have hrefl : ordering compareFn source.val[i] source.val[i] = .eq := Std.ReflCmp.compare_self
      rw [hrefl]
      rfl
    · exact hdrop.1 b hb

theorem pairwise_insert_of_point (hpoint : IsInsertionPoint (ordering compareFn) source.val item 0 source.val.length p) :
    (source.val.take p ++ item :: source.val.drop p).Pairwise fun a b => (ordering compareFn a b).isLE := by
  apply pairwise_insert hsorted
  · intro a ha
    obtain ⟨i, hi, rfl⟩ := List.mem_take_iff_getElem.mp ha
    rw [hpoint.smaller i _ (Nat.zero_le i) (by omega) (List.getElem?_eq_getElem _)]
    rfl
  · intro a ha
    obtain ⟨i, hi, rfl⟩ := List.mem_drop_iff_getElem.mp ha
    have hlarger := hpoint.larger (p + i) _ (by omega) (by omega) (List.getElem?_eq_getElem (by omega))
    rw [Std.OrientedCmp.gt_iff_lt.mp hlarger]
    rfl

theorem inserts_iff :
    Inserts source item compareFn ↔ source.val.length + 1 < 2 ^ 32 ∧
      ∀ p, IsInsertionPoint (ordering compareFn) source.val item 0 source.val.length p → p < 2 ^ 31 := by
  have hlength := source.property
  obtain ⟨result, hsearch, hspec⟩ := @binarySearch_spec _ source item compareFn none none _ _ _ hsorted
    (isRange_default source)
  obtain ⟨i, a, _, _, hget, heq, hresult⟩ | ⟨p, hpoint, hresult⟩ := hspec
  · rw [hresult] at hsearch
    rw [inserts_iff_of_search hsearch (if_pos (Int.natCast_nonneg i))]
    apply and_congr_right'
    apply iff_of_true (pairwise_insert_of_equal hsorted hget heq)
    intro q hq
    exact absurd ⟨i, a, Nat.zero_le i, (List.getElem?_eq_some_iff.mp hget).1, hget, heq⟩ hq.not_hasEqual
  · rw [hresult] at hsearch
    have hle := hpoint.le_last
    by_cases hsmall : p < 2 ^ 31
    · have hnegative : complement p = -p - 1 := complement_of_lt (by omega) (by omega)
      have hback : complement (-p - 1) = p := by
        rw [complement_of_neg (by omega) (by omega)]
        omega
      have hn : (if 0 ≤ complement p then complement p else complement (complement p)) = p := by
        rw [hnegative, if_neg (by omega), hback]
      rw [inserts_iff_of_search hsearch hn]
      apply and_congr_right'
      apply iff_of_true (pairwise_insert_of_point hsorted hpoint)
      intro q hq
      exact hq.unique hpoint (Nat.le_refl _) ▸ hsmall
    · have hwrapped : complement p = (2 ^ 32 - 1 - p : Nat) := by
        rw [complement_of_ge (by omega) (by omega)]
        omega
      rw [inserts_iff_of_search hsearch (by rw [hwrapped, if_pos (by omega)])]
      apply and_congr_right'
      apply iff_of_false
      · exact not_pairwise_insert hpoint (by omega)
      · exact fun h => hsmall (h p hpoint)

end Sorted

/-- A search meets its description unless the range has no equal element and the insertion point is `2^31` or more. The same holds of an insertion, which also needs the array to have room for one more element. -/
theorem searches_and_inserts_iff [Std.TransCmp (ordering compareFn)]
    (hsorted : source.val.Pairwise fun a b => (ordering compareFn a b).isLE) :
    (∀ value startIndex endIndex first last, IsRange source startIndex endIndex first last →
      (Searches source value compareFn startIndex endIndex first last ↔
        ∀ p, IsInsertionPoint (ordering compareFn) source.val value first last p → p < 2 ^ 31)) ∧
    ∀ item, Inserts source item compareFn ↔ source.val.length + 1 < 2 ^ 32 ∧
      ∀ p, IsInsertionPoint (ordering compareFn) source.val item 0 source.val.length p → p < 2 ^ 31 := by
  refine ⟨?_, ?_⟩
  · intro value startIndex endIndex first last h
    exact searches_iff_of_isRange hsorted h
  · intro item
    exact inserts_iff hsorted

end Specification

/-! ### Numbers -/

/-- `(a, b) => a - b` -/
def difference (a b : Rat) : Rat := a - b

theorem ordering_difference : ordering difference = compare := by
  funext a b
  rw [ordering, difference, ← cmp_eq_compare, cmp_sub_zero, cmp_eq_compare]

instance : Std.TransCmp (ordering difference) := by
  rw [ordering_difference]
  infer_instance

def threes : ArrayOf Rat := ⟨[1, 3, 3], by decide⟩

theorem searches_and_inserts_iff_threes :
    (∀ value startIndex endIndex first last, IsRange threes startIndex endIndex first last →
      (Searches threes value difference startIndex endIndex first last ↔
        ∀ p, IsInsertionPoint (ordering difference) threes.val value first last p → p < 2 ^ 31)) ∧
    ∀ item, Inserts threes item difference ↔ threes.val.length + 1 < 2 ^ 32 ∧
      ∀ p, IsInsertionPoint (ordering difference) threes.val item 0 threes.val.length p → p < 2 ^ 31 :=
  searches_and_inserts_iff (by decide +kernel)

/-- An array of `2^31` zeros. -/
def zeros : ArrayOf Rat := ⟨List.replicate (2 ^ 31) 0, by rw [List.length_replicate]; omega⟩

theorem isInsertionPoint_zeros : IsInsertionPoint (ordering difference) zeros.val 1 0 zeros.val.length (2 ^ 31) := by
  have hlength : zeros.val.length = 2 ^ 31 := List.length_replicate
  refine ⟨Nat.zero_le _, hlength.ge, ?_, ?_⟩
  · intro i a _ _ hget
    obtain rfl := List.eq_of_mem_replicate (List.mem_of_getElem? hget)
    decide +kernel
  · intro i a hi hlast
    omega

/-- No zero is as large as one, which belongs at the end. The search returns the index of the last zero, and the one is inserted before it. -/
theorem not_searches_zeros :
    IsRange zeros none none 0 zeros.val.length ∧ ¬Searches zeros 1 difference none none 0 zeros.val.length ∧
      ¬Inserts zeros 1 difference := by
  have hsorted : zeros.val.Pairwise fun a b => (ordering difference a b).isLE := by
    rw [zeros, List.pairwise_replicate]
    exact .inr (by decide +kernel)
  have hrange := isRange_default zeros
  refine ⟨hrange, ?_, ?_⟩
  · rw [searches_iff_of_isRange hsorted hrange]
    exact fun h => Nat.lt_irrefl _ (h _ isInsertionPoint_zeros)
  · rw [inserts_iff hsorted]
    exact fun h => Nat.lt_irrefl _ (h.2 _ isInsertionPoint_zeros)

end BinarySearch

end Coaty
