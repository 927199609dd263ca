import UnitAnalysis.Proofs.Symbols.Occurrences

/-!
# Bare names in match arms

A bare name in the pattern of an arm may bind a name or mean a constructor, and this is decided
twice. The symbol table takes the names of variants without fields for constructors and binds all
others in the scope of the arm. The check of matches takes the names of all variants for
constructors, and any other bare name for a pattern that takes every value. The main result says for
which names the two agree: a variant with fields is bound by the one and a constructor for the
other.
-/

set_option autoImplicit false

namespace UnitAnalysis

namespace Pattern

mutual

/-- A pattern and the patterns in it, at any depth. -/
def parts (p : Pattern) : List Pattern :=
  p :: match p with
    | .bare _ _ => []
    | .typed _ _ _ => []
    | .literal _ _ => []
    | .wildcard _ => []
    | .tuple _ elements => partsAll elements
    | .array _ elements _ => partsAll elements
    | .struct _ _ fields => fieldParts fields
    | .tupleStruct _ _ elements => partsAll elements
    | .either _ left right => left.parts ++ right.parts
    | .range _ _ _ _ => []

/-- Several patterns and the patterns in them. -/
def partsAll : List Pattern → List Pattern
  | [] => []
  | p :: ps => p.parts ++ partsAll ps

/-- The patterns in field patterns. -/
def fieldParts : List FieldPattern → List Pattern
  | [] => []
  | .shorthand _ :: fields => fieldParts fields
  | .nested _ p :: fields => p.parts ++ fieldParts fields

end

/-- A name stands on its own among occurrences. -/
def HasBare (name : String) (os : List Occurrence) : Prop :=
  ∃ o ∈ os, o.name = name ∧ o.mention.isBare = true

/-- On the left. -/
theorem HasBare.append_left {name : String} {os : List Occurrence} (h : HasBare name os)
    (more : List Occurrence) : HasBare name (os ++ more) := by
  obtain ⟨o, ho, hname⟩ := h
  exact ⟨o, List.mem_append_left more ho, hname⟩

/-- On the right. -/
theorem HasBare.append_right {name : String} {more : List Occurrence} (os : List Occurrence)
    (h : HasBare name more) : HasBare name (os ++ more) := by
  obtain ⟨o, ho, hname⟩ := h
  exact ⟨o, List.mem_append_right os ho, hname⟩

/-- In the right side of a choice. -/
theorem HasBare.toRight {name : String} {os : List Occurrence} (h : HasBare name os) :
    HasBare name (os.map Occurrence.toRight) := by
  obtain ⟨o, ho, hname⟩ := h
  exact ⟨o.toRight, List.mem_map.2 ⟨o, ho, rfl⟩, hname⟩

mutual

/-- A bare name at any depth of a pattern is one of its occurrences. -/
theorem hasBare_of_mem_parts {node : Node} {name : String} (p : Pattern)
    (h : .bare node name ∈ p.parts) : HasBare name p.occurrences := by
  match p with
  | .bare _ _ =>
    rcases List.mem_cons.1 h with heq | hmem
    · cases heq
      exact ⟨_, List.mem_singleton_self _, rfl, rfl⟩
    · cases hmem
  | .typed _ _ _ | .literal _ _ | .wildcard _ | .range _ _ _ _ =>
    rcases List.mem_cons.1 h with heq | hmem
    · cases heq
    · cases hmem
  | .tuple _ elements | .tupleStruct _ _ elements =>
    rcases List.mem_cons.1 h with heq | hmem
    · cases heq
    · exact hasBare_of_mem_partsAll elements hmem
  | .array _ elements rest =>
    rcases List.mem_cons.1 h with heq | hmem
    · cases heq
    · exact (hasBare_of_mem_partsAll elements hmem).append_left _
  | .struct _ _ fields =>
    rcases List.mem_cons.1 h with heq | hmem
    · cases heq
    · exact hasBare_of_mem_fieldParts fields hmem
  | .either _ left right =>
    rcases List.mem_cons.1 h with heq | hmem
    · cases heq
    · rcases List.mem_append.1 hmem with hleft | hright
      · exact (hasBare_of_mem_parts left hleft).append_left _
      · exact .append_right _ (hasBare_of_mem_parts right hright).toRight

/-- Several patterns. -/
theorem hasBare_of_mem_partsAll {node : Node} {name : String} (ps : List Pattern)
    (h : .bare node name ∈ partsAll ps) : HasBare name (occurrencesAll ps) := by
  match ps with
  | [] => cases h
  | p :: ps =>
    rcases List.mem_append.1 h with hfirst | hrest
    · exact (hasBare_of_mem_parts p hfirst).append_left _
    · exact .append_right _ (hasBare_of_mem_partsAll ps hrest)

/-- Field patterns. -/
theorem hasBare_of_mem_fieldParts {node : Node} {name : String} (fields : List FieldPattern)
    (h : .bare node name ∈ fieldParts fields) : HasBare name (fieldOccurrences fields) := by
  match fields with
  | [] => cases h
  | .shorthand other :: fields =>
    exact .append_right [_] (hasBare_of_mem_fieldParts fields h)
  | .nested _ p :: fields =>
    rcases List.mem_append.1 h with hfirst | hrest
    · exact (hasBare_of_mem_parts p hfirst).append_left _
    · exact .append_right _ (hasBare_of_mem_fieldParts fields hrest)

end

/-- A name that stands on its own somewhere is defined unless it is a constructor without fields.
Then it is defined only by an occurrence that is not bare and not in the right side of a choice. -/
theorem mem_defined_iff_of_hasBare (ix : DeclIndex) {name : String} {p : Pattern}
    (h : HasBare name p.occurrences) :
    name ∈ p.defined ix ↔ ix.isUnitVariant name = false ∨
      ∃ o ∈ p.occurrences, o.name = name ∧ o.mention.isBare = false ∧ o.onRight = false := by
  rw [mem_defined_iff_exists_defines]
  constructor
  · rintro ⟨o, ho, rfl, hdefines⟩
    simp only [Occurrence.defines, Bool.or_eq_true, Bool.and_eq_true, Bool.not_eq_true'] at hdefines
    exact hdefines.imp_right fun hbare => ⟨o, ho, rfl, hbare⟩
  · rintro (hunit | ⟨o, ho, hname, hbare, hright⟩)
    · obtain ⟨o, ho, rfl, -⟩ := h
      exact ⟨o, ho, rfl, by simp [Occurrence.defines, hunit]⟩
    · exact ⟨o, ho, hname, by simp [Occurrence.defines, hbare, hright]⟩

end Pattern

/-- A unit variant has no fields. -/
theorem DeclIndex.fields_eq_nil_of_isUnitVariant {ix : DeclIndex} {name : String} {v : Variant}
    (hunit : ix.isUnitVariant name = true) (hv : ix.variant? name = some v) : v.fields = [] := by
  rw [isUnitVariant, hv] at hunit
  exact List.isEmpty_iff.1 hunit

/-- **Bindings and constructors in match arms.** Take an arm of a unit and a bare name at any depth
of its pattern. The arm is the construct at some position, and its scope is the one after that
position. If the check of matches takes the bare name for a pattern that takes every value, then the
scope of the arm has the name. The two agree exactly when the name is no variant, or is a variant
without fields that stands, outside of right sides of choices, on its own only. -/
theorem arm_binds_iff_isCatchAll (intrinsics : List (String × TypeExpr)) (u : SourceUnit) {n : Nat}
    {owner : Option NodeId} {node node' : Node} {p : Pattern} {name : String}
    (hn : u.scopedNodes[n]? = some (owner, .arm node p)) (hbare : .bare node' name ∈ p.parts) :
    let table := (Builder.ofUnit intrinsics u).table
    let binds := table.scopes.Binds ⟨1 + n⟩ name
    let catches := (Pattern.bare node' name).isCatchAll table.decls = true
    table.scopes.kind? ⟨1 + n⟩ = some .matchArm ∧
      (u.ids.Nodup → table.scopeMap.get? node.id = some ⟨1 + n⟩) ∧
      (catches → binds) ∧
      ((binds ↔ catches) ↔ ∀ v, table.decls.variant? name = some v → v.fields = [] ∧
        ∀ o ∈ p.occurrences, o.name = name → o.mention.isBare = true ∨ o.onRight = true) := by
  intro table binds catches
  have hshows := Builder.shows_ofUnit intrinsics u hn
  have hbinds : binds ↔ table.decls.isUnitVariant name = false ∨
      ∃ o ∈ p.occurrences, o.name = name ∧ o.mention.isBare = false ∧ o.onRight = false :=
    (hshows.binds name).trans (p.mem_defined_iff_of_hasBare _ (p.hasBare_of_mem_parts hbare))
  refine ⟨hshows.kind, fun hids => ?_, ?_, ?_⟩
  · exact ((Builder.built_ofUnit intrinsics hids).scope_of_scopedNode hn).1
  · intro hcatches
    have hnone : table.decls.variant? name = none := Option.isNone_iff_eq_none.1 hcatches
    exact hbinds.2 (.inl (by rw [DeclIndex.isUnitVariant, hnone]))
  · cases hvariant : table.decls.variant? name with
    | none =>
      have hcatches : catches := Option.isNone_iff_eq_none.2 hvariant
      have hunit : table.decls.isUnitVariant name = false := by
        rw [DeclIndex.isUnitVariant, hvariant]
      simp [hcatches, hbinds.2 (.inl hunit)]
    | some v =>
      have hcatches : ¬ catches := by simp [catches, Pattern.isCatchAll, hvariant]
      have hunit : table.decls.isUnitVariant name = v.fields.isEmpty := by
        rw [DeclIndex.isUnitVariant, hvariant]
      rw [iff_false_right hcatches, hbinds, hunit]
      constructor
      · rintro hnot v' ⟨⟩
        refine ⟨?_, fun o ho hname => ?_⟩
        · by_contra hfields
          exact hnot (.inl (by simpa using hfields))
        · by_contra hneither
          rw [not_or, Bool.not_eq_true, Bool.not_eq_true] at hneither
          exact hnot (.inr ⟨o, ho, hname, hneither⟩)
      · intro hall
        obtain ⟨hfields, hothers⟩ := hall v rfl
        rintro (hempty | ⟨o, ho, hname, hmention, hright⟩)
        · rw [hfields] at hempty
          cases hempty
        · simpa [hmention, hright] using hothers o ho hname

/-- A data type with a variant that has fields and one that has none, and a match with one arm,
whose pattern is given. -/
def shapeMatch (pattern : Pattern) : SourceUnit :=
  let node (n : UInt64) : Node := ⟨⟨n⟩, {}⟩
  { node := node 0
    decls :=
      [.data
        { node := node 1, name := "Shape",
          variants :=
            [{ node := node 2, name := "Circle",
               fields := [{ node := node 3, name := "radius", ty := .named {} "Float" [] }] },
             { node := node 4, name := "Empty" }] },
       .function
        { node := node 5, name := "f",
          params := [{ node := node 6, name := "s", ty := .named {} "Shape" [] }],
          body := ⟨node 7, [], some (.matchOn (node 8) (.ident (node 9) "s")
            [⟨node 10, pattern, none, .literal (node 11) .none⟩])⟩ }] }

/-- A choice between a pair with a constructor and a name, deep inside. -/
def emptyOrOther : Pattern :=
  let node (n : UInt64) : Node := ⟨⟨n⟩, {}⟩
  .either (node 12) (.tuple (node 13) [.bare (node 14) "Empty", .bare (node 15) "other"])
    (.array (node 16) [.bare (node 17) "Empty"] (some "other"))

/-- A choice with a variant. -/
theorem arm_binds_emptyOrOther :
    let table := (Builder.ofUnit [] (shapeMatch emptyOrOther)).table
    table.decls.isUnitVariant "Empty" = true ∧
      (table.scopes.Binds ⟨1 + 2⟩ "Empty" ↔
        (Pattern.bare ⟨⟨14⟩, {}⟩ "Empty").isCatchAll table.decls = true) ∧
      (table.scopes.Binds ⟨1 + 2⟩ "other" ↔
        (Pattern.bare ⟨⟨15⟩, {}⟩ "other").isCatchAll table.decls = true) := by
  intro table
  have harm : (shapeMatch emptyOrOther).scopedNodes[2]? =
      some (some ⟨7⟩, .arm ⟨⟨10⟩, {}⟩ emptyOrOther) := rfl
  have hempty : .bare ⟨⟨14⟩, {}⟩ "Empty" ∈ emptyOrOther.parts :=
    List.mem_cons_of_mem _ (List.mem_cons_of_mem _ List.mem_cons_self)
  have hother : .bare ⟨⟨15⟩, {}⟩ "other" ∈ emptyOrOther.parts :=
    List.mem_cons_of_mem _ (List.mem_cons_of_mem _ (List.mem_cons_of_mem _ List.mem_cons_self))
  have hunit : table.decls.isUnitVariant "Empty" = true := by decide +kernel
  have hnone : table.decls.variant? "other" = none := by
    rw [← Option.isNone_iff_eq_none]
    decide +kernel
  have hbare : ∀ o ∈ emptyOrOther.occurrences, o.name = "Empty" →
      o.mention.isBare = true ∨ o.onRight = true := by decide
  have hagree := (arm_binds_iff_isCatchAll [] (shapeMatch emptyOrOther) harm hempty).2.2.2
  have hagree' := (arm_binds_iff_isCatchAll [] (shapeMatch emptyOrOther) harm hother).2.2.2
  refine ⟨hunit, hagree.2 ?_, hagree'.2 ?_⟩
  · intro v hv
    exact ⟨DeclIndex.fields_eq_nil_of_isUnitVariant hunit hv, hbare⟩
  · intro v hv
    exact absurd (hnone.symm.trans hv) (by simp)

/-- A bare name of a variant with fields is bound in the scope of its arm, and the check of matches
takes it for a constructor: the match is reported to miss the other variant. -/
theorem fieldVariant_binds_not_catchAll :
    let u := shapeMatch (.bare ⟨⟨12⟩, {}⟩ "Circle")
    let table := (Builder.ofUnit [] u).table
    u.scopedNodes[2]? = some (some ⟨7⟩, .arm ⟨⟨10⟩, {}⟩ (.bare ⟨⟨12⟩, {}⟩ "Circle")) ∧
      table.scopes.Binds ⟨3⟩ "Circle" ∧
      (Pattern.bare ⟨⟨12⟩, {}⟩ "Circle").isCatchAll table.decls = false ∧
      (analyze {} u).findings.map (fun f => f.problem.code) = [.nonExhaustiveMatch] :=
  ⟨rfl, by decide +kernel, by decide +kernel, by decide +kernel⟩

end UnitAnalysis
