import Coaty.Evaluation
import Coaty.Model.CoreTypes
import Coaty.Model.IoNode

/-!
# IO nodes on the network

The IO node that an object read from the network stands for. The object itself is kept as the opaque part. Every object that passes the check of its core type stands for one, with or without its arrays of points.
-/

namespace Coaty

open Js Value Evaluation
open Checkable (hasProperty hasOptional)

namespace IoPoint

def ofValue (point : Value) : Option (IoPoint Value Rat) :=
  match point.get (text "objectId"), point.get (text "valueType") with
  | some (.string objectId), some (.string valueType) =>
    if h : objectId ≠ [] then
      some {
        objectId := ⟨objectId, h⟩
        valueType
        useRawIoValues := match point.get (text "useRawIoValues") with
          | some (.bool b) => some b
          | _ => none
        updateRate := match point.get (text "updateRate") with
          | some (.number rate) => some rate
          | _ => none
        externalRoute := match point.get (text "externalRoute") with
          | some (.string route) => some route
          | _ => none
        properties := point }
    else none
  | _, _ => none

end IoPoint

/-- The points of an array, or `undefined` if it is absent. -/
def ioPointsOf : Option Value → Option (Option (List (IoPoint Value Rat)))
  | none => some none
  | some (.array points) => (points.mapM IoPoint.ofValue).map some
  | some _ => none

namespace IoNode

def ofValue (node : Value) : Option (IoNode Value Rat) :=
  match node.get (text "objectId"), node.get (text "name") with
  | some (.string objectId), some (.string name) =>
    if h : objectId ≠ [] then do
      let ioSources ← ioPointsOf (node.get (text "ioSources"))
      let ioActors ← ioPointsOf (node.get (text "ioActors"))
      return { objectId := ⟨objectId, h⟩, name, ioSources, ioActors, properties := node }
    else none
  | _, _ => none

end IoNode

/-! ### Accepted objects stand for IO nodes -/

theorem exists_string_of_hasProperty {value : Value} {name : String} (h : hasProperty isString value name = true) :
    ∃ s, value.get (text name) = some (.string s) := by
  rw [hasProperty, Checkable.get_value] at h
  cases hget : value.get (text name) with
  | none =>
    rw [hget] at h
    cases h
  | some property =>
    rw [hget] at h
    cases property with
    | string s => exact ⟨s, rfl⟩
    | null => cases h
    | bool _ => cases h
    | number _ => cases h
    | array _ => cases h
    | object _ => cases h

theorem exists_string_of_hasProperty_nonEmpty {value : Value} {name : String}
    (h : hasProperty isNonEmptyString value name = true) :
    ∃ s, value.get (text name) = some (.string s) ∧ s ≠ [] := by
  have hstring : hasProperty isString value name = true := by
    rw [hasProperty, Checkable.get_value, Option.any_eq_true] at h ⊢
    obtain ⟨property, hget, hproperty⟩ := h
    refine ⟨property, hget, ?_⟩
    cases property with
    | string s => rfl
    | null => cases hproperty
    | bool _ => cases hproperty
    | number _ => cases hproperty
    | array _ => cases hproperty
    | object _ => cases hproperty
  obtain ⟨s, hs⟩ := exists_string_of_hasProperty hstring
  refine ⟨s, hs, ?_⟩
  intro hempty
  subst hempty
  rw [hasProperty, Checkable.get_value, hs] at h
  cases h

theorem isSome_ofValue_of_isIoPoint {coreType : CoreType} {point : Value}
    (h : CoreTypes.isIoPoint coreType point = true) : (IoPoint.ofValue point).isSome = true := by
  simp only [CoreTypes.isIoPoint, CoreTypes.isAnyObject, Bool.and_eq_true] at h
  obtain ⟨objectId, hobjectId, hne⟩ := exists_string_of_hasProperty_nonEmpty h.1.1.1.1.1.1.1.2
  obtain ⟨valueType, hvalueType, _⟩ := exists_string_of_hasProperty_nonEmpty h.1.1.1.2
  rw [IoPoint.ofValue, hobjectId, hvalueType]
  simp only [dif_pos hne, Option.isSome_some]

theorem isSome_ioPointsOf {coreType : CoreType} {isPoint : Value → Bool}
    (hpoint : ∀ point, isPoint point = true → CoreTypes.isIoPoint coreType point = true) {node : Value} {name : String}
    (h : hasOptional (isArrayOf isPoint) node name = true) : (ioPointsOf (node.get (text name))).isSome = true := by
  rw [hasOptional, Checkable.get_value] at h
  cases hget : node.get (text name) with
  | none => rfl
  | some points =>
    rw [hget] at h
    cases points with
    | array points =>
      have hpoints : ∀ point ∈ points, isPoint point = true := List.all_eq_true.mp h
      rw [ioPointsOf, Option.isSome_map]
      exact isSome_mapM fun point hmem => isSome_ofValue_of_isIoPoint (hpoint point (hpoints point hmem))
    | null => cases h
    | bool _ => cases h
    | number _ => cases h
    | string _ => cases h
    | object _ => cases h

/-- Every object that is accepted as an IO node stands for one. -/
theorem isSome_ofValue_of_isIoNode {node : Value} (h : CoreTypes.isIoNode node = true) :
    (IoNode.ofValue node).isSome = true := by
  simp only [CoreTypes.isIoNode, Bool.and_eq_true] at h
  have hany := h.1.1.1.1
  simp only [CoreTypes.isAnyObject, Bool.and_eq_true] at hany
  obtain ⟨objectId, hobjectId, hne⟩ := exists_string_of_hasProperty_nonEmpty hany.1.1.2
  obtain ⟨name, hname⟩ := exists_string_of_hasProperty hany.1.1.1.1.1
  have hsource : ∀ point, (isPlainObject point && CoreTypes.isIoSource point) = true →
      CoreTypes.isIoPoint .ioSource point = true := by
    intro point hpoint
    simp only [CoreTypes.isIoSource, Bool.and_eq_true] at hpoint
    exact hpoint.2.1
  have hactor : ∀ point, (isPlainObject point && CoreTypes.isIoActor point) = true →
      CoreTypes.isIoPoint .ioActor point = true := by
    intro point hpoint
    rw [Bool.and_eq_true] at hpoint
    exact hpoint.2
  obtain ⟨ioSources, hioSources⟩ := Option.isSome_iff_exists.mp (isSome_ioPointsOf hsource h.1.1.2)
  obtain ⟨ioActors, hioActors⟩ := Option.isSome_iff_exists.mp (isSome_ioPointsOf hactor h.1.2)
  rw [IoNode.ofValue, hobjectId, hname]
  simp only [dif_pos hne, hioSources, hioActors]
  rfl

end Coaty
