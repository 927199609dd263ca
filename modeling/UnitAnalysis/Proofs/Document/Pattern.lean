import UnitAnalysis.Proofs.Document.Fields
import UnitAnalysis.Proofs.Syntax.Finite

/-!
# Reading types and patterns back

Written types, literals and patterns are read back as they were written, the latter two when their
doubles are finite. Each form finds its own fields, and the readers of its parts read those back by
induction on the syntax.
-/

set_option autoImplicit false

namespace UnitAnalysis

open Document

variable {fuel : Nat} {isNested : Bool}

/-! ## Written types -/

mutual

theorem TypeExpr.isReadable_toJson : ∀ t : TypeExpr, t.toJson.isReadable = true
  | .named _ _ args => by simp [TypeExpr.toJson, TypeExpr.allReadable_toJsonAll args]
  | .optional _ inner => by simp [TypeExpr.toJson, inner.isReadable_toJson]
  | .array _ element => by simp [TypeExpr.toJson, element.isReadable_toJson]
  | .tuple _ elements => by simp [TypeExpr.toJson, TypeExpr.allReadable_toJsonAll elements]
  | .function _ params ret => by
    simp [TypeExpr.toJson, TypeExpr.allReadable_toJsonAll params, ret.isReadable_toJson]

theorem TypeExpr.allReadable_toJsonAll :
    ∀ ts : List TypeExpr, Json.allReadable (TypeExpr.toJsonAll ts) = true
  | [] => rfl
  | t :: ts => by
    simp [TypeExpr.toJsonAll, t.isReadable_toJson, TypeExpr.allReadable_toJsonAll ts]

end

attribute [simp] TypeExpr.isReadable_toJson TypeExpr.allReadable_toJsonAll

@[simp] theorem TypeExpr.isReadable_option (o : Option TypeExpr) :
    (Option.toJson toJson o).isReadable = true :=
  Option.isReadable_toJson isReadable_toJson o

theorem TypeExpr.toJson_ne_null (t : TypeExpr) : t.toJson ≠ .null := by
  cases t <;> simp [toJson]

mutual

theorem TypeExpr.read_toJson : ∀ (t : TypeExpr) {fuel : Nat} {isNested : Bool},
    t.toJson.height ≤ fuel → typeExpr fuel isNested t.toJson = pure t
  | .named _ _ args, _, _, h => by
    obtain ⟨fuel, rfl, hfuel⟩ := exists_fuel h
    simp at hfuel
    simp [TypeExpr.toJson, typeExpr, typeForms, spanField, TypeExpr.read_toJsonAll args, hfuel]
  | .optional _ inner, _, _, h => by
    obtain ⟨fuel, rfl, hfuel⟩ := exists_fuel h
    simp at hfuel
    simp [TypeExpr.toJson, typeExpr, typeForms, spanField, inner.read_toJson, hfuel]
  | .array _ element, _, _, h => by
    obtain ⟨fuel, rfl, hfuel⟩ := exists_fuel h
    simp at hfuel
    simp [TypeExpr.toJson, typeExpr, typeForms, spanField, element.read_toJson, hfuel]
  | .tuple _ elements, _, _, h => by
    obtain ⟨fuel, rfl, hfuel⟩ := exists_fuel h
    simp at hfuel
    simp [TypeExpr.toJson, typeExpr, typeForms, spanField, TypeExpr.read_toJsonAll elements,
      hfuel]
  | .function _ params ret, _, _, h => by
    obtain ⟨fuel, rfl, hfuel⟩ := exists_fuel h
    simp at hfuel
    simp [TypeExpr.toJson, typeExpr, typeForms, spanField, TypeExpr.read_toJsonAll params,
      ret.read_toJson, hfuel]

theorem TypeExpr.read_toJsonAll : ∀ (ts : List TypeExpr) {fuel : Nat} {isNested : Bool},
    (Json.arr (TypeExpr.toJsonAll ts)).height ≤ fuel →
      list (typeExpr fuel isNested) (.arr (TypeExpr.toJsonAll ts)) = pure ts
  | [], _, _, _ => rfl
  | t :: ts, _, _, h => by
    obtain ⟨hhead, htail⟩ := height_arr_cons_le h
    exact list_cons (t.read_toJson hhead) (TypeExpr.read_toJsonAll ts htail)

end

theorem TypeExpr.read_option (o : Option TypeExpr) (h : (Option.toJson toJson o).height ≤ fuel) :
    nullable (typeExpr fuel isNested) (Option.toJson toJson o) = pure o :=
  nullable_toJson toJson_ne_null h fun t _ ht => t.read_toJson ht

@[simp] theorem TypeParam.isReadable_toJson (p : TypeParam) : p.toJson.isReadable = true := by
  have hbounds : Json.allReadable (p.bounds.map .str) = true :=
    Json.allReadable_map (fun _ => rfl) _
  simp [toJson, hbounds]

@[simp] theorem TypeParam.read_toJson (p : TypeParam) : typeParam p.toJson = pure p := by
  have hbounds : list text (.arr (p.bounds.map .str)) = pure p.bounds :=
    list_map (Nat.le_refl _) fun _ _ _ => rfl
  simp [typeParam, toJson, hbounds]

/-! ## Literals -/

@[simp] theorem Literal.isReadable_toJson (l : Literal) : l.toJson.isReadable = true := by
  cases l with
  | float x => by_cases h : x.isFinite <;> simp [toJson, Float.toJson, h]
  | _ => simp [toJson]

theorem Literal.read_toJson {l : Literal} (h : l.isFinite = true) :
    literal isNested l.toJson = pure l := by
  cases l with
  | int n => simp [toJson, literal, signed_toInt]
  | float x => simp [toJson, literal, double_toJson h]
  | string s => simp [toJson, literal]
  | char c => simp [toJson, literal, character_singleton]
  | bool b => simp [toJson, literal]
  | none => simp [toJson, literal, oneOf_str]

/-! ## Patterns -/

mutual

theorem Pattern.isReadable_toJson : ∀ p : Pattern, p.toJson.isReadable = true
  | .bare _ _ | .typed _ _ _ | .literal _ _ | .range _ _ _ _ => by simp [Pattern.toJson]
  | .wildcard _ => by simp [Pattern.toJson, Node.fields]
  | .tuple _ elements | .array _ elements _ | .tupleStruct _ _ elements => by
    simp [Pattern.toJson, Pattern.allReadable_toJsonAll elements]
  | .struct _ _ fields => by simp [Pattern.toJson, Pattern.allReadable_fieldsToJson fields]
  | .either _ left right => by
    simp [Pattern.toJson, left.isReadable_toJson, right.isReadable_toJson]

theorem Pattern.allReadable_toJsonAll :
    ∀ ps : List Pattern, Json.allReadable (Pattern.toJsonAll ps) = true
  | [] => rfl
  | p :: ps => by simp [Pattern.toJsonAll, p.isReadable_toJson, Pattern.allReadable_toJsonAll ps]

theorem Pattern.allReadable_fieldsToJson :
    ∀ fields : List FieldPattern, Json.allReadable (Pattern.fieldsToJson fields) = true
  | [] => rfl
  | .shorthand _ :: fields => by
    simp [Pattern.fieldsToJson, Pattern.allReadable_fieldsToJson fields]
  | .nested _ p :: fields => by
    simp [Pattern.fieldsToJson, p.isReadable_toJson, Pattern.allReadable_fieldsToJson fields]

end

attribute [simp] Pattern.isReadable_toJson Pattern.allReadable_toJsonAll
  Pattern.allReadable_fieldsToJson

theorem Pattern.toJson_ne_null (p : Pattern) : p.toJson ≠ .null := by
  cases p <;> simp [toJson]

/-- A pattern is read by its form, with the parts of its fields one level lower. -/
theorem Pattern.read_form {form : String} {node : Node} {fields : List (String × Json)}
    {p : Pattern} (h : (Json.obj (("kind", .str form) :: node.fields ++ fields)).height ≤ fuel)
    (hform : form ∈ patternForms) (hfields : Apart "kind" fields)
    (hread : ∀ rest, Json.heightFields fields ≤ rest →
      patternOf (typeExpr rest true) (pattern rest true) node
        (("kind", .str form) :: node.fields ++ fields) form = pure p) :
    pattern fuel isNested (.obj (("kind", .str form) :: node.fields ++ fields)) = pure p := by
  obtain ⟨rest, rfl, hrest⟩ := exists_fuel h
  refine Eq.trans (tagged_form node hfields (by decide) hform
    (patternOf (typeExpr rest true) (pattern rest true))) ?_
  exact hread rest (heightFields_le_of_append hrest)

mutual

theorem Pattern.read_toJson : ∀ (p : Pattern) {fuel : Nat} {isNested : Bool}, p.isFinite = true →
    p.toJson.height ≤ fuel → pattern fuel isNested p.toJson = pure p
  | .bare _ _, _, _, _, h => by
    refine Pattern.read_form h (by decide) (by simp [Apart]) fun rest _ => ?_
    simp [patternOf, Node.fields]
  | .typed _ _ ty, _, _, _, h => by
    refine Pattern.read_form h (by decide) (by simp [Apart]) fun rest hrest => ?_
    simp at hrest
    simp [patternOf, Node.fields, ty.read_toJson, hrest]
  | .literal _ value, _, _, hfinite, h => by
    have hvalue : value.isFinite = true := by simpa [Pattern.isFinite] using hfinite
    refine Pattern.read_form h (by decide) (by simp [Apart]) fun rest _ => ?_
    simp [patternOf, Node.fields, value.read_toJson hvalue]
  | .wildcard _, _, _, _, h => by
    refine Pattern.read_form h (by decide) (by simp [Apart]) fun rest _ => ?_
    simp [patternOf]
  | .tuple _ elements, _, _, hfinite, h | .array _ elements _, _, _, hfinite, h
  | .tupleStruct _ _ elements, _, _, hfinite, h => by
    have helements : Pattern.allFinite elements = true := by
      simpa [Pattern.isFinite] using hfinite
    refine Pattern.read_form h (by decide) (by simp [Apart]) fun rest hrest => ?_
    simp at hrest
    simp [patternOf, Node.fields, Pattern.read_toJsonAll elements helements, hrest]
  | .struct _ _ fields, _, _, hfinite, h => by
    have hfields : FieldPattern.allFinite fields = true := by
      simpa [Pattern.isFinite] using hfinite
    refine Pattern.read_form h (by decide) (by simp [Apart]) fun rest hrest => ?_
    simp at hrest
    simp [patternOf, Node.fields, Pattern.read_fieldsToJson fields hfields, hrest]
  | .either _ left right, _, _, hfinite, h => by
    obtain ⟨hleft, hright⟩ : left.isFinite = true ∧ right.isFinite = true := by
      simpa [Pattern.isFinite] using hfinite
    refine Pattern.read_form h (by decide) (by simp [Apart]) fun rest hrest => ?_
    simp at hrest
    simp [patternOf, Node.fields, left.read_toJson hleft, right.read_toJson hright, hrest]
  | .range _ first last _, _, _, hfinite, h => by
    obtain ⟨hfirst, hlast⟩ : first.isFinite = true ∧ last.isFinite = true := by
      simpa [Pattern.isFinite] using hfinite
    refine Pattern.read_form h (by decide) (by simp [Apart]) fun rest _ => ?_
    simp [patternOf, Node.fields, first.read_toJson hfirst, last.read_toJson hlast]

theorem Pattern.read_toJsonAll : ∀ (ps : List Pattern) {fuel : Nat} {isNested : Bool},
    Pattern.allFinite ps = true → (Json.arr (Pattern.toJsonAll ps)).height ≤ fuel →
      list (pattern fuel isNested) (.arr (Pattern.toJsonAll ps)) = pure ps
  | [], _, _, _, _ => rfl
  | p :: ps, _, _, hfinite, h => by
    obtain ⟨hp, hps⟩ : p.isFinite = true ∧ Pattern.allFinite ps = true := by
      simpa [Pattern.allFinite] using hfinite
    obtain ⟨hhead, htail⟩ := height_arr_cons_le h
    exact list_cons (p.read_toJson hp hhead) (Pattern.read_toJsonAll ps hps htail)

theorem Pattern.read_fieldsToJson : ∀ (fields : List FieldPattern) {fuel : Nat} {isNested : Bool},
    FieldPattern.allFinite fields = true → (Json.arr (Pattern.fieldsToJson fields)).height ≤ fuel →
      list (patternField (pattern fuel isNested)) (.arr (Pattern.fieldsToJson fields)) = pure fields
  | [], _, _, _, _ => rfl
  | .shorthand _ :: fields, _, _, hfinite, h => by
    obtain ⟨_, htail⟩ := height_arr_cons_le h
    refine list_cons ?_ (Pattern.read_fieldsToJson fields hfinite htail)
    simp [patternField, nullable, fieldPattern]
  | .nested _ p :: fields, fuel, isNested, hfinite, h => by
    obtain ⟨hp, hfields⟩ : p.isFinite = true ∧ FieldPattern.allFinite fields = true := by
      simpa [FieldPattern.allFinite] using hfinite
    obtain ⟨hhead, htail⟩ := height_arr_cons_le h
    refine list_cons ?_ (Pattern.read_fieldsToJson fields hfields htail)
    have hheight := heightFields_le_of_obj hhead
    simp at hheight
    have hread : nullable (pattern fuel isNested) p.toJson = pure (some p) :=
      nullable_of_ne p.toJson_ne_null (p.read_toJson hp hheight.2)
    simp [patternField, hread, fieldPattern]

end

end UnitAnalysis
