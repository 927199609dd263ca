import Mathlib.Data.List.Perm.Basic
import UnitAnalysis.Proofs.Diagnostic.Code
import UnitAnalysis.Proofs.Scope.Agreement

/-!
# Lexical resolution

Which names are in force at a place of a unit can be told from the syntax alone. An `Environment`
lists them: the global names and then what each construct around the place brings into force, inside
its region only. `lexicalRules` says how it is inherited, without scopes and without tables.

The main result says that the analysis reports just those names that are not in force where they
stand, once for each time that they stand there.
-/

set_option autoImplicit false

namespace UnitAnalysis

/-! ## Environments -/

mutual

/-- The names that a pattern brings into force. A bare name that is a constructor without fields
brings none. -/
def Pattern.boundNames (constructors : List String) : Pattern → List String
  | .bare _ name => if name ∈ constructors then [] else [name]
  | .typed _ name _ => [name]
  | .literal _ _ => []
  | .wildcard _ => []
  | .tuple _ elements => Pattern.boundNamesAll constructors elements
  | .array _ elements rest => Pattern.boundNamesAll constructors elements ++ rest.toList
  | .struct _ _ fields => FieldPattern.boundNamesAll constructors fields
  | .tupleStruct _ _ elements => Pattern.boundNamesAll constructors elements
  | .either _ left right => left.boundNames constructors ++ right.boundNames constructors
  | .range _ _ _ _ => []

/-- The names that several patterns bring into force. -/
def Pattern.boundNamesAll (constructors : List String) : List Pattern → List String
  | [] => []
  | p :: ps => p.boundNames constructors ++ Pattern.boundNamesAll constructors ps

/-- The names that the fields of a struct pattern bring into force. -/
def FieldPattern.boundNamesAll (constructors : List String) : List FieldPattern → List String
  | [] => []
  | .shorthand name :: fields => name :: FieldPattern.boundNamesAll constructors fields
  | .nested _ p :: fields =>
    p.boundNames constructors ++ FieldPattern.boundNamesAll constructors fields

end

/-- The constructors of a declaration that have no fields. -/
def Decl.unitVariants : Decl → List String
  | data d => (d.variants.filter fun v => v.fields.isEmpty).map fun v => v.name
  | _ => []

namespace SourceUnit

/-- The constructors of a unit that have no fields. -/
def unitVariants (u : SourceUnit) : List String :=
  u.decls.flatMap Decl.unitVariants

/-- The names that are in force everywhere in a unit: those of its types, functions and variants, of
the functions that need no declaration, and the names of its script. -/
def globalNames (intrinsics : List (String × TypeExpr)) (u : SourceUnit) : List String :=
  u.declaredNames intrinsics ++ u.scriptNames (Pattern.boundNames u.unitVariants)

end SourceUnit

/-- What is in force at a place: the names, and whether the place is looked at. -/
structure Environment where
  /-- The names. -/
  names : List String
  /-- Whether the place is looked at; it is not inside a target that cannot be assigned to. -/
  reached : Bool

/-- A construct adds its names to those around it. -/
def lexicalRules (constructors : List String) : Rules Environment where
  enter env o := { env with names := o.names (Pattern.boundNames constructors) ++ env.names }
  skip env := { env with reached := false }

/-- The reports on a site: that it is a name which is looked at and not in force. -/
def Site.unresolved : Site Environment → List Finding
  | expr env (.ident node name) =>
    if env.reached ∧ name ∉ env.names then [⟨.unresolvedName name, node.span⟩] else []
  | _ => []

/-- The names of a unit that are not in force where they stand, from left to right. -/
def SourceUnit.unresolvedNames (intrinsics : List (String × TypeExpr)) (u : SourceUnit) :
    List Finding :=
  (u.sites (lexicalRules u.unitVariants) ⟨u.globalNames intrinsics, true⟩).flatMap Site.unresolved

/-! ## Names of patterns

The symbol table goes by the declared types, and an environment by the syntax. The two may differ on
the names of variants, which are global in any case.
-/

section Patterns

variable {ix : DeclIndex} {constructors : List String} {name : String}

/-- Adding names that are not there yet gives all names. -/
theorem mem_addNewNames {bound extra : List (String × Span)} :
    name ∈ (addNewNames bound extra).map Prod.fst ↔
      name ∈ bound.map Prod.fst ∨ name ∈ extra.map Prod.fst := by
  unfold addNewNames
  induction extra generalizing bound with
  | nil => simp
  | cons b extra ih =>
    rw [List.foldl_cons, ih]
    split
    · next hany =>
        obtain ⟨b', hb', heq⟩ := List.any_eq_true.1 hany
        have hold : b.1 ∈ bound.map Prod.fst :=
          List.mem_map.2 ⟨b', hb', of_decide_eq_true heq⟩
        rw [List.map_cons, List.mem_cons]
        constructor
        · rintro (h | h)
          · exact .inl h
          · exact .inr (.inr h)
        · rintro (h | rfl | h)
          · exact .inl h
          · exact .inl hold
          · exact .inr h
    · simp only [List.map_append, List.map_cons, List.map_nil, List.mem_append, List.mem_cons,
        List.not_mem_nil, or_false, or_assoc]

mutual

/-- A pattern binds the names that it brings into force, but for those of constructors. -/
theorem Pattern.mem_bindings_iff (hname : name ∉ constructors) (p : Pattern) :
    name ∈ p.bindings.map Prod.fst ↔ name ∈ p.boundNames constructors := by
  match p with
  | .bare _ other =>
    simp only [Pattern.bindings, Pattern.boundNames, List.map_cons, List.map_nil,
      List.mem_singleton]
    split
    · next hother =>
        simp only [List.not_mem_nil, iff_false]
        rintro rfl
        exact hname hother
    · rw [List.mem_singleton]
  | .typed _ _ _ | .literal _ _ | .wildcard _ | .range _ _ _ _ => exact Iff.rfl
  | .tuple _ elements | .tupleStruct _ _ elements =>
    exact Pattern.mem_bindingsAll_iff hname elements
  | .array node elements rest =>
    simp only [Pattern.bindings, Pattern.boundNames, List.map_append, List.mem_append,
      Pattern.mem_bindingsAll_iff hname elements]
    cases rest <;> simp
  | .struct node _ fields => exact FieldPattern.mem_bindings_iff hname node.span fields
  | .either _ left right =>
    simp only [Pattern.bindings, Pattern.boundNames, mem_addNewNames, List.mem_append,
      left.mem_bindings_iff hname, right.mem_bindings_iff hname]

/-- Several patterns. -/
theorem Pattern.mem_bindingsAll_iff (hname : name ∉ constructors) (ps : List Pattern) :
    name ∈ (Pattern.bindingsAll ps).map Prod.fst ↔
      name ∈ Pattern.boundNamesAll constructors ps := by
  match ps with
  | [] => exact Iff.rfl
  | p :: ps =>
    simp only [Pattern.bindingsAll, Pattern.boundNamesAll, List.map_append, List.mem_append,
      p.mem_bindings_iff hname, Pattern.mem_bindingsAll_iff hname ps]

/-- Field patterns. -/
theorem FieldPattern.mem_bindings_iff (hname : name ∉ constructors) (span : Span)
    (fields : List FieldPattern) :
    name ∈ (Pattern.fieldBindings span fields).map Prod.fst ↔
      name ∈ FieldPattern.boundNamesAll constructors fields := by
  match fields with
  | [] => exact Iff.rfl
  | .shorthand other :: fields =>
    simp only [Pattern.fieldBindings, FieldPattern.boundNamesAll, List.map_cons, List.mem_cons,
      FieldPattern.mem_bindings_iff hname span fields]
  | .nested _ p :: fields =>
    simp only [Pattern.fieldBindings, FieldPattern.boundNamesAll, List.map_append, List.mem_append,
      p.mem_bindings_iff hname, FieldPattern.mem_bindings_iff hname span fields]

end

/-- The names that only the right side of a choice defines, beside those of the left side. -/
theorem Pattern.mem_rightOnly_iff (hix : ix.isUnitVariant name = false)
    (hname : name ∉ constructors) (left right : Pattern) :
    name ∈ rightOnly ix left right ↔
      name ∈ right.boundNames constructors ∧ name ∉ left.boundNames constructors := by
  simp only [rightOnly, bindingNames, List.mem_filter, hix, Bool.not_false, and_true,
    decide_eq_true_eq, left.mem_bindings_iff hname, right.mem_bindings_iff hname]

mutual

/-- A pattern defines the names that it brings into force, but for those of constructors. -/
theorem Pattern.mem_defined_iff (hix : ix.isUnitVariant name = false) (hname : name ∉ constructors)
    (p : Pattern) : name ∈ p.defined ix ↔ name ∈ p.boundNames constructors := by
  match p with
  | .bare _ other =>
    simp only [Pattern.defined, Pattern.boundNames]
    by_cases heq : name = other
    · subst heq
      simp [hix, hname]
    · split <;> split <;> simp [heq]
  | .typed _ _ _ | .literal _ _ | .wildcard _ | .range _ _ _ _ => exact Iff.rfl
  | .tuple _ elements | .tupleStruct _ _ elements =>
    exact Pattern.mem_definedAll_iff hix hname elements
  | .array _ elements rest =>
    simp only [Pattern.defined, Pattern.boundNames, List.mem_append,
      Pattern.mem_definedAll_iff hix hname elements]
  | .struct _ _ fields => exact FieldPattern.mem_defined_iff hix hname fields
  | .either _ left right =>
    simp only [Pattern.defined, Pattern.boundNames, List.mem_append,
      left.mem_defined_iff hix hname, Pattern.mem_rightOnly_iff hix hname]
    tauto

/-- Several patterns. -/
theorem Pattern.mem_definedAll_iff (hix : ix.isUnitVariant name = false)
    (hname : name ∉ constructors) (ps : List Pattern) :
    name ∈ Pattern.definedAll ix ps ↔ name ∈ Pattern.boundNamesAll constructors ps := by
  match ps with
  | [] => exact Iff.rfl
  | p :: ps =>
    simp only [Pattern.definedAll, Pattern.boundNamesAll, List.mem_append,
      p.mem_defined_iff hix hname, Pattern.mem_definedAll_iff hix hname ps]

/-- Field patterns. -/
theorem FieldPattern.mem_defined_iff (hix : ix.isUnitVariant name = false)
    (hname : name ∉ constructors) (fields : List FieldPattern) :
    name ∈ Pattern.fieldsDefined ix fields ↔
      name ∈ FieldPattern.boundNamesAll constructors fields := by
  match fields with
  | [] => exact Iff.rfl
  | .shorthand other :: fields =>
    simp only [Pattern.fieldsDefined, FieldPattern.boundNamesAll, List.mem_cons,
      FieldPattern.mem_defined_iff hix hname fields]
  | .nested _ p :: fields =>
    simp only [Pattern.fieldsDefined, FieldPattern.boundNamesAll, List.mem_append,
      p.mem_defined_iff hix hname, FieldPattern.mem_defined_iff hix hname fields]

end

/-- What holds of the names of patterns holds of the names of a construct. -/
theorem Opening.mem_names_congr {f g : Pattern → List String} (h : ∀ p, name ∈ f p ↔ name ∈ g p)
    (o : Opening) : name ∈ o.names f ↔ name ∈ o.names g := by
  cases o with
  | letBind _ p => exact h p
  | arm _ p => exact h p
  | forLoop _ p => exact h p
  | _ => exact Iff.rfl

/-- What holds of the names of patterns holds of the names of a script. -/
theorem SourceUnit.mem_scriptNames_congr {f g : Pattern → List String}
    (h : ∀ p, name ∈ f p ↔ name ∈ g p) (u : SourceUnit) :
    name ∈ u.scriptNames f ↔ name ∈ u.scriptNames g := by
  have hdecl : ∀ d : Decl, name ∈ d.scriptNames f ↔ name ∈ d.scriptNames g := by
    intro d
    cases d with
    | script s =>
      cases s with
      | letBind _ p _ _ _ => exact h p
      | expr _ _ => exact Iff.rfl
    | _ => exact Iff.rfl
  simp only [SourceUnit.scriptNames, List.mem_flatMap, hdecl]

end Patterns

/-! ## Names in force -/

/-- From the scope of a construct its names are visible and those visible around it. -/
theorem Arena.Holds.sees_iff {ix : DeclIndex} {a : Arena} {scope place : ScopeId} {o : Opening}
    (h : a.Holds ix scope place o) (name : String) :
    a.Sees scope name ↔ name ∈ o.names (Pattern.defined ix) ∨ a.Sees place name := by
  rw [Arena.sees_iff, Arena.sees_iff, h.enclosing, List.exists_mem_cons_iff, h.binds]

/-- The constructors of a unit without fields have declared names. -/
theorem SourceUnit.unitVariants_subset (intrinsics : List (String × TypeExpr)) (u : SourceUnit) :
    u.unitVariants ⊆ u.declaredNames intrinsics := by
  intro name hname
  obtain ⟨d, hd, hvariant⟩ := List.mem_flatMap.1 hname
  refine List.mem_append_right _ (List.mem_flatMap.2 ⟨d, hd, ?_⟩)
  cases d with
  | data d => exact List.map_subset _ (List.filter_subset_self _) hvariant
  | _ => cases hvariant

/-- An environment shows what can be seen from where a check stands. -/
structure Environment.Shows (declared : List String) (a : Arena) (standing : Option Standing)
    (env : Environment) : Prop where
  reached : env.reached = standing.isSome
  declared : ∀ name ∈ declared, name ∈ env.names
  names : ∀ s ∈ standing, ∀ name, a.Sees s.scope name ↔ name ∈ env.names

namespace Builder.Built

variable {intrinsics : List (String × TypeExpr)} {u : SourceUnit} {b : Builder}

variable (h : b.Built intrinsics u)

include h

/-- The table and the syntax agree on the names of a pattern that are not declared. -/
theorem mem_defined_iff {name : String} (hname : name ∉ u.declaredNames intrinsics) (p : Pattern) :
    name ∈ p.defined b.table.decls ↔ name ∈ p.boundNames u.unitVariants := by
  refine p.mem_defined_iff ?_ fun hvariant => hname (u.unitVariants_subset intrinsics hvariant)
  unfold DeclIndex.isUnitVariant
  cases hv : b.table.decls.variant? name with
  | none => rfl
  | some v => exact absurd (h.variants name (by rw [hv]; rfl)) hname

/-- At the top the global names are in force. -/
theorem shows_global (standing : Standing) (hscope : standing.scope = .global) :
    Environment.Shows (u.declaredNames intrinsics) b.table.scopes (some standing)
      ⟨u.globalNames intrinsics, true⟩ := by
  refine ⟨rfl, fun name hname => List.mem_append_left _ hname, fun s hs name => ?_⟩
  obtain rfl := Option.some.inj hs
  rw [hscope, Arena.sees_iff, h.outermost, List.exists_mem_cons_iff, h.global,
    SourceUnit.globalNames, List.mem_append]
  by_cases hname : name ∈ u.declaredNames intrinsics
  · simp [hname]
  · simp [u.mem_scriptNames_congr (h.mem_defined_iff hname)]

/-- A construct brings its names into force. -/
theorem shows_enter {standing : Option Standing} {o : Opening}
    {env : Environment} (ho : ∀ s ∈ standing, .opening s.scope o ∈ u.scopeSites b.table)
    (henv : Environment.Shows (u.declaredNames intrinsics) b.table.scopes standing env) :
    Environment.Shows (u.declaredNames intrinsics) b.table.scopes
      ((standingRules b.table).enter standing o) ((lexicalRules u.unitVariants).enter env o) := by
  refine ⟨?_, fun name hname => List.mem_append_right _ (henv.declared name hname), ?_⟩
  · exact henv.reached.trans Option.isSome_map.symm
  · intro s hs name
    obtain ⟨around, haround, rfl⟩ := Option.map_eq_some_iff.1 hs
    obtain ⟨n, hn⟩ := List.mem_iff_getElem?.1 (mem_openings.2 (ho around haround))
    obtain ⟨hid, hholds⟩ := h.opened n around.scope o hn
    have hscope : b.table.scopeFor o.id around.scope = ⟨1 + n⟩ := by
      rw [SymbolTable.scopeFor, hid, Option.getD_some]
    change b.table.scopes.Sees (b.table.scopeFor o.id around.scope) name ↔ name ∈ _ ++ env.names
    rw [hscope, hholds.sees_iff, henv.names around haround, List.mem_append]
    -- A declared name is in force anyway, and on other names the table and the syntax agree.
    by_cases hname : name ∈ u.declaredNames intrinsics
    · simp [henv.declared name hname]
    · rw [o.mem_names_congr (h.mem_defined_iff hname)]

/-- All over the unit, the environment shows what can be seen. -/
theorem shows_everywhere (standing : Standing) (hscope : standing.scope = .global) :
    List.Forall₂
      (Site.Related (Environment.Shows (u.declaredNames intrinsics) b.table.scopes))
      (u.sites (standingRules b.table) (some standing))
      (u.sites (lexicalRules u.unitVariants) ⟨u.globalNames intrinsics, true⟩) := by
  refine u.sites_related (h.shows_global standing hscope) ⟨fun st env henv => ?_, ?_⟩
  · exact ⟨rfl, henv.declared, fun s hs => by cases hs⟩
  · intro st o ho env henv
    refine h.shows_enter (fun s hs => ?_) henv
    obtain ⟨site, hsite, hrelated⟩ :=
      exists_of_forall₂ (u.standing_related b.table standing hscope) ho
    cases hrelated with
    | opening hplace => rwa [hplace s hs]

end Builder.Built

/-! ## Reports on names -/

/-- Whether a report is about a name that cannot be resolved. -/
def Finding.isUnresolved (f : Finding) : Bool :=
  f.problem.code = .unresolvedIdentifier

/-- A name that cannot be resolved is a problem of place. -/
theorem Problem.isPlacement_of_code {problem : Problem}
    (h : problem.code = .unresolvedIdentifier) : problem.isPlacement = true := by
  cases problem with
  | unresolvedName name => rfl
  | operands op left right =>
    simp only [Problem.code] at h
    split at h <;> cases h
  | outsideAsync form callable => cases form <;> cases h
  | _ => cases h

/-- Who reports other codes does not report on names. -/
theorem Reports.filter_isUnresolved {codes : List Code} {found : List Finding}
    (h : Reports codes found) (hcodes : .unresolvedIdentifier ∉ codes) :
    found.filter Finding.isUnresolved = [] :=
  h.filter_eq_nil fun _ hf hmem => hcodes (of_decide_eq_true hf ▸ hmem)

/-- The reports of a check on a name are those that the environment asks for. -/
theorem Site.filter_placement_eq_unresolved {declared : List String} {a : Arena} (ctx : Context)
    (types : Table NodeId Ty) {st : Site (Option Standing)} {site : Site Environment}
    (h : Site.Related (Environment.Shows declared a) st site) :
    (st.placement ctx a types).filter Finding.isUnresolved = site.unresolved := by
  cases h with
  | @expr standing env e henv =>
    have hreached := henv.reached
    cases standing with
    | none =>
      cases e with
      | ident node name => simp [Site.placement, Site.unresolved, hreached]
      | _ => rfl
    | some s =>
      have hasync (form : AsyncForm) (span : Span) :
          (Check.asyncFindings s.around form span).filter Finding.isUnresolved = [] :=
        (Check.reports_asyncFindings ..).filter_isUnresolved (by decide)
      cases e with
      | ident node name =>
        simp only [Site.placement, Expr.placement, Site.unresolved, hreached,
          henv.names s rfl name, Option.isSome_some, true_and, ite_not]
        split <;> rfl
      | ret node value =>
        exact (Check.reports_returnFindings ..).filter_isUnresolved (by decide)
      | await node value => exact hasync .await node.span
      | concurrent node bindings => exact hasync .concurrent node.span
      | race node body => exact hasync .race node.span
      | timeout node duration body => exact hasync .timeout node.span
      | _ => rfl
  | _ => rfl

/-- Lists of related sites give the same reports on names. -/
theorem filter_flatMap_placement_eq {declared : List String} {a : Arena} (ctx : Context)
    (types : Table NodeId Ty) {l : List (Site (Option Standing))} {m : List (Site Environment)}
    (h : List.Forall₂ (Site.Related (Environment.Shows declared a)) l m) :
    (l.flatMap (Site.placement ctx a types)).filter Finding.isUnresolved =
      m.flatMap Site.unresolved :=
  filter_flatMap_of_forall₂ (fun _ _ => Site.filter_placement_eq_unresolved ctx types) h

/-- **Lexical resolution is exact.** When no two nodes of a unit have the same identity, the
analysis shows a diagnostic with the code of unresolved names once for each name that stands where
it is not in force and is looked at, and for nothing else. -/
theorem unresolved_diagnostics_perm (config : Config) (u : SourceUnit) (hids : u.ids.Nodup) :
    ((analyze config u).diagnostics.filter fun d => d.code = "TC001").Perm
      ((u.unresolvedNames config.readableIntrinsics).map Finding.toDiagnostic) := by
  have hbuilt := Builder.built_ofUnit config.readableIntrinsics hids
  obtain ⟨-, hfound⟩ := u.prepare_follows config.analysis config.readableIntrinsics hids
  have hcode : ((fun d : Diagnostic => decide (d.code = "TC001")) ∘ Finding.toDiagnostic) =
      Finding.isUnresolved := by
    funext f
    exact decide_eq_decide.2 (f.toDiagnostic_code_eq_iff (c := .unresolvedIdentifier))
  rw [Analysis.diagnostics, List.filter_map, hcode]
  refine List.Perm.map _ ?_
  have hnames := hfound Finding.isUnresolved fun _ hf =>
    Problem.isPlacement_of_code (of_decide_eq_true hf)
  rwa [filter_flatMap_placement_eq _ _ (hbuilt.shows_everywhere ⟨.global, {}⟩ rfl),
    (reports_functions ..).filter_isUnresolved (by decide), List.nil_append] at hnames

/-- A function that uses names outside their regions: a `let` in its own value, a name after the
block that binds it, a name of a `concurrent` block inside that block, and a name nowhere bound. The
target of the assignment is not looked at. -/
def strayNames : SourceUnit :=
  let node (n : UInt64) : Node := ⟨⟨n⟩, {}⟩
  { node := node 0
    decls :=
      [.function
        { node := node 1, name := "f",
          body :=
            ⟨node 2,
              [.letBind (node 3) (.bare (node 4) "x") none false (.ident (node 5) "x"),
              .expr (node 6) (.block (node 7)
                ⟨node 8, [.letBind (node 9) (.bare (node 10) "y") none false (.ident (node 11) "x")],
                  some (.ident (node 12) "y")⟩),
              .expr (node 13) (.ident (node 14) "y"),
              .expr (node 15) (.concurrent (node 16) [⟨node 17, "r", .ident (node 18) "r"⟩]),
              .expr (node 19) (.assign (node 20)
                (.tupleLit (node 21) [.ident (node 22) "z"]) (.ident (node 23) "w"))],
              some (.ident (node 24) "r")⟩ }] }

/-- Four names out of scope. -/
theorem unresolved_diagnostics_strayNames :
    strayNames.ids.Nodup ∧
      (strayNames.unresolvedNames []).map (fun f => f.problem) =
        [.unresolvedName "x", .unresolvedName "y", .unresolvedName "r", .unresolvedName "w"] ∧
      ((analyze {} strayNames).diagnostics.filter fun d => d.code = "TC001").Perm
        ((strayNames.unresolvedNames []).map Finding.toDiagnostic) :=
  ⟨by decide, by rfl, unresolved_diagnostics_perm {} strayNames (by decide)⟩

end UnitAnalysis
