import UnitAnalysis.Document.Diagnostic
import UnitAnalysis.Proofs.Document.Body

/-!
# Documents are read back

A unit with finite doubles is read back from its JSON form exactly as it was, and so is every part
of it and every diagnostic. A diagnostic leaves out what it does not have, and a note without a
place is told apart from one whose place has all the defaults, because only the latter has a field
for it.
-/

set_option autoImplicit false

namespace UnitAnalysis

open Document

variable {fuel : Nat}

/-! ## Parts of declarations -/

@[simp] theorem TypeParam.allReadable_toJson (params : List TypeParam) :
    Json.allReadable (params.map toJson) = true :=
  Json.allReadable_map isReadable_toJson params

@[simp] theorem TypeParam.read_list (params : List TypeParam) :
    list typeParam (.arr (params.map toJson)) = pure params :=
  list_map (Nat.le_refl _) fun p _ _ => p.read_toJson

@[simp] theorem Param.allReadable_toJson (params : List Param) :
    Json.allReadable (params.map toJson) = true :=
  Json.allReadable_map (fun p => by simp [toJson]) params

theorem Param.read_list {ps : List Param} (h : (Json.arr (ps.map toJson)).height ≤ fuel) :
    list (param fuel) (.arr (ps.map toJson)) = pure ps := by
  refine list_map h fun p _ hp => ?_
  have hfields := heightFields_le_of_obj hp
  simp [Node.fields] at hfields
  simp [param, toJson, Node.fields, Document.node, spanField, TypeExpr.read_toJson, hfields]

@[simp] theorem FieldDecl.allReadable_toJson (fs : List FieldDecl) :
    Json.allReadable (fs.map toJson) = true :=
  Json.allReadable_map (fun f => by simp [toJson]) fs

theorem FieldDecl.read_list {fs : List FieldDecl} (hfinite : fs.all isFinite = true)
    (h : (Json.arr (fs.map toJson)).height ≤ fuel) :
    list (fieldDecl fuel) (.arr (fs.map toJson)) = pure fs := by
  refine list_map h fun f hf hheight => ?_
  have hfields := heightFields_le_of_obj hheight
  simp [Node.fields] at hfields
  have hinitializer : Expr.isFiniteOption f.initializer = true := List.all_eq_true.1 hfinite f hf
  simp [fieldDecl, toJson, Node.fields, Document.node, spanField, TypeExpr.read_toJson,
    Expr.read_toJsonOption f.initializer hinitializer, hfields]

/-! ## The fields of declarations -/

@[simp] theorem FunctionDecl.fieldsReadable_jsonFields (f : FunctionDecl) :
    Json.fieldsReadable f.jsonFields = true := by
  simp [jsonFields]

theorem FunctionDecl.read_jsonFields {f : FunctionDecl} (hfinite : f.body.isFinite = true)
    (h : Json.heightFields f.jsonFields ≤ fuel) : functionFields fuel f.jsonFields = pure f := by
  simp [jsonFields, Node.fields] at h
  simp [functionFields, jsonFields, Node.fields, Document.node, spanField, Document.typeParams,
    Document.params, Param.read_list, TypeExpr.read_option, Block.read_toJson, hfinite, h]

@[simp] theorem FunctionDecl.allReadable_toJson (ms : List FunctionDecl) :
    Json.allReadable (ms.map fun m => .obj m.jsonFields) = true :=
  Json.allReadable_map (fun m => m.fieldsReadable_jsonFields) ms

theorem FunctionDecl.read_list {ms : List FunctionDecl}
    (hfinite : (ms.all fun m => m.body.isFinite) = true)
    (h : (Json.arr (ms.map fun m => .obj m.jsonFields)).height ≤ fuel) :
    list (object (functionFields fuel)) (.arr (ms.map fun m => .obj m.jsonFields)) = pure ms :=
  list_map h fun m hm hheight =>
    m.read_jsonFields (List.all_eq_true.1 hfinite m hm) (heightFields_le_of_obj hheight)

theorem ClassKind.read_tag (k : ClassKind) : choice true classKinds (.str k.tag) = pure k :=
  choice_str (by cases k <;> rfl)

theorem ClassDecl.read_jsonFields {c : ClassDecl} (hfields : c.fields.all FieldDecl.isFinite = true)
    (hmethods : (c.methods.all fun m => m.body.isFinite) = true)
    (h : Json.heightFields c.jsonFields ≤ fuel) : classFields fuel c.jsonFields = pure c := by
  simp [jsonFields, Node.fields] at h
  simp [classFields, jsonFields, Node.fields, Document.node, spanField, ClassKind.read_tag,
    Document.typeParams, fieldDecls, FieldDecl.read_list hfields, Document.methods,
    FunctionDecl.read_list hmethods, h]

theorem StructDecl.read_jsonFields {s : StructDecl}
    (hfields : s.fields.all FieldDecl.isFinite = true)
    (h : Json.heightFields s.jsonFields ≤ fuel) : structFields fuel s.jsonFields = pure s := by
  simp [jsonFields, Node.fields] at h
  simp [structFields, jsonFields, Node.fields, Document.node, spanField, Document.typeParams,
    fieldDecls, FieldDecl.read_list hfields, h]

@[simp] theorem VariantDecl.allReadable_toJson (vs : List VariantDecl) :
    Json.allReadable (vs.map toJson) = true :=
  Json.allReadable_map (fun v => by simp [toJson]) vs

theorem VariantDecl.read_list {vs : List VariantDecl}
    (hfinite : (vs.all fun v => v.fields.all FieldDecl.isFinite) = true)
    (h : (Json.arr (vs.map toJson)).height ≤ fuel) :
    list (variantDecl fuel) (.arr (vs.map toJson)) = pure vs := by
  refine list_map h fun v hv hheight => ?_
  have hfields : v.fields.all FieldDecl.isFinite = true := List.all_eq_true.1 hfinite v hv
  have hheights := heightFields_le_of_obj hheight
  simp [Node.fields] at hheights
  simp [variantDecl, toJson, Node.fields, Document.node, spanField, fieldDecls,
    FieldDecl.read_list hfields, hheights]

theorem DataDecl.read_jsonFields {d : DataDecl}
    (hfinite : (d.variants.all fun v => v.fields.all FieldDecl.isFinite) = true)
    (h : Json.heightFields d.jsonFields ≤ fuel) : dataFields fuel d.jsonFields = pure d := by
  simp [jsonFields, Node.fields] at h
  simp [dataFields, jsonFields, Node.fields, Document.node, spanField, Document.typeParams,
    VariantDecl.read_list hfinite, h]

@[simp] theorem MethodSig.allReadable_toJson (ms : List MethodSig) :
    Json.allReadable (ms.map toJson) = true :=
  Json.allReadable_map (fun m => by simp [toJson]) ms

theorem MethodSig.read_list {ms : List MethodSig} (h : (Json.arr (ms.map toJson)).height ≤ fuel) :
    list (methodSig fuel) (.arr (ms.map toJson)) = pure ms := by
  refine list_map h fun m _ hheight => ?_
  have hheights := heightFields_le_of_obj hheight
  simp [Node.fields] at hheights
  simp [methodSig, toJson, Node.fields, Document.node, spanField, Document.typeParams,
    Document.params, Param.read_list, TypeExpr.read_option, hheights]

theorem TraitDecl.read_jsonFields {t : TraitDecl} (h : Json.heightFields t.jsonFields ≤ fuel) :
    traitFields fuel t.jsonFields = pure t := by
  simp [jsonFields, Node.fields] at h
  simp [traitFields, jsonFields, Node.fields, Document.node, spanField, Document.typeParams,
    MethodSig.read_list, h]

theorem ImplDecl.read_jsonFields {i : ImplDecl}
    (hmethods : (i.methods.all fun m => m.body.isFinite) = true)
    (h : Json.heightFields i.jsonFields ≤ fuel) : implFields fuel i.jsonFields = pure i := by
  simp [jsonFields, Node.fields] at h
  simp [implFields, jsonFields, Node.fields, Document.node, spanField, TypeExpr.read_toJsonAll,
    Document.typeParams, TypeExpr.read_toJson, Document.methods, FunctionDecl.read_list hmethods, h]

/-! ## Declarations

The form of a declaration stands among its fields, and their readers pass it over. -/

section PassedOver

variable (form : Json) (fields : List (String × Json))

theorem functionFields_type :
    functionFields fuel (("type", form) :: fields) = functionFields fuel fields := by
  simp [functionFields, typeParams, params]

theorem classFields_type :
    classFields fuel (("type", form) :: fields) = classFields fuel fields := by
  simp [classFields, typeParams, fieldDecls, methods]

theorem structFields_type :
    structFields fuel (("type", form) :: fields) = structFields fuel fields := by
  simp [structFields, typeParams, fieldDecls]

theorem dataFields_type :
    dataFields fuel (("type", form) :: fields) = dataFields fuel fields := by
  simp [dataFields, typeParams]

theorem traitFields_type :
    traitFields fuel (("type", form) :: fields) = traitFields fuel fields := by
  simp [traitFields, typeParams]

theorem implFields_type :
    implFields fuel (("type", form) :: fields) = implFields fuel fields := by
  simp [implFields, typeParams, methods]

end PassedOver

theorem Decl.isReadable_toJson (d : Decl) : d.toJson.isReadable = true := by
  cases d with
  | script s => exact s.isReadable_toJson
  | function d => simp [toJson]
  | classLike d => simp [toJson, ClassDecl.jsonFields]
  | struct d | spark d => simp [toJson, StructDecl.jsonFields]
  | data d => simp [toJson, DataDecl.jsonFields]
  | trait d | interface d => simp [toJson, TraitDecl.jsonFields]
  | impl d => simp [toJson, ImplDecl.jsonFields]

theorem Decl.read_toJson {d : Decl} (hfinite : d.isFinite = true) (h : d.toJson.height ≤ fuel) :
    decl fuel d.toJson = pure d := by
  have hreadable := d.isReadable_toJson
  cases d with
  | function d =>
    have hheight : Json.heightFields d.jsonFields ≤ fuel := heightFields_le_of_form h
    have hreadable : Json.fieldsReadable d.jsonFields = true := hreadable
    have htype : "type" ∉ d.jsonFields.map Prod.fst := by
      simp [FunctionDecl.jsonFields, Node.fields]
    simp [toJson, decl, declForms, hreadable, htype, functionFields_type,
      d.read_jsonFields hfinite hheight]
  | classLike d =>
    have hheight : Json.heightFields d.jsonFields ≤ fuel := heightFields_le_of_form h
    have hreadable : Json.fieldsReadable d.jsonFields = true := hreadable
    obtain ⟨hfields, hmethods⟩ : d.fields.all FieldDecl.isFinite = true ∧
        (d.methods.all fun m => m.body.isFinite) = true := by
      rwa [isFinite, Bool.and_eq_true] at hfinite
    have htype : "type" ∉ d.jsonFields.map Prod.fst := by simp [ClassDecl.jsonFields, Node.fields]
    simp [toJson, decl, declForms, hreadable, htype, classFields_type,
      d.read_jsonFields hfields hmethods hheight]
  | struct d | spark d =>
    have hheight : Json.heightFields d.jsonFields ≤ fuel := heightFields_le_of_form h
    have hreadable : Json.fieldsReadable d.jsonFields = true := hreadable
    have htype : "type" ∉ d.jsonFields.map Prod.fst := by
      simp [StructDecl.jsonFields, Node.fields]
    simp [toJson, decl, declForms, hreadable, htype, structFields_type,
      d.read_jsonFields hfinite hheight]
  | data d =>
    have hheight : Json.heightFields d.jsonFields ≤ fuel := heightFields_le_of_form h
    have hreadable : Json.fieldsReadable d.jsonFields = true := hreadable
    have htype : "type" ∉ d.jsonFields.map Prod.fst := by simp [DataDecl.jsonFields, Node.fields]
    simp [toJson, decl, declForms, hreadable, htype, dataFields_type,
      d.read_jsonFields hfinite hheight]
  | trait d | interface d =>
    have hheight : Json.heightFields d.jsonFields ≤ fuel := heightFields_le_of_form h
    have hreadable : Json.fieldsReadable d.jsonFields = true := hreadable
    have htype : "type" ∉ d.jsonFields.map Prod.fst := by simp [TraitDecl.jsonFields, Node.fields]
    simp [toJson, decl, declForms, hreadable, htype, traitFields_type,
      d.read_jsonFields hheight]
  | impl d =>
    have hheight : Json.heightFields d.jsonFields ≤ fuel := heightFields_le_of_form h
    have hreadable : Json.fieldsReadable d.jsonFields = true := hreadable
    have htype : "type" ∉ d.jsonFields.map Prod.fst := by simp [ImplDecl.jsonFields, Node.fields]
    simp [toJson, decl, declForms, hreadable, htype, implFields_type,
      d.read_jsonFields hfinite hheight]
  | script s =>
    have hread : stmt fuel false s.toJson = pure s := s.read_toJson hfinite h
    have hreadable : s.toJson.isReadable = true := hreadable
    -- a statement is tagged by its own form, which is also the form of a declaration
    cases s with
    | letBind node pattern ty isMutable value | expr node value =>
      simp [Stmt.toJson, Node.fields] at hread
      simp [toJson, Stmt.toJson, Node.fields, decl, declForms, hread]

theorem SourceUnit.read_toJson {u : SourceUnit} (hfinite : u.isFinite = true) :
    sourceUnit u.toJson = pure u := by
  have hdecls : list (decl u.toJson.height) (.arr (u.decls.map Decl.toJson)) = pure u.decls := by
    refine list_map ?_ fun d hd hheight => d.read_toJson (List.all_eq_true.1 hfinite d hd) hheight
    have hfields := heightFields_le_of_obj (Nat.le_refl u.toJson.height)
    simp [Node.fields] at hfields
    exact hfields.2.2.2
  unfold sourceUnit
  generalize u.toJson.height = fuel at hdecls
  simp [toJson, Node.fields, Document.node, spanField, hdecls]

/-! ## Diagnostics -/

/-- The names of the fields of an object. -/
def Json.keys : Json → List String
  | obj fields => fields.map Prod.fst
  | _ => []

theorem Severity.read_text (s : Severity) : choice false severities (.str s.text) = pure s :=
  choice_str (by cases s <;> rfl)

theorem Note.read_toJson (n : Note) : note n.toJson = pure n := by
  obtain ⟨message, span⟩ := n
  cases span with
  | none => simp [note, toJson, optionField]
  | some span =>
    have hspan : nullable Document.span span.toJson = pure (some span) :=
      nullable_of_ne nofun (span_toJson span)
    simp [note, toJson, optionField, hspan]

theorem Note.span_mem_keys_iff (n : Note) : "span" ∈ n.toJson.keys ↔ n.span.isSome = true := by
  cases hspan : n.span <;> simp [toJson, Json.keys, optionField, hspan]

theorem Suggestion.read_toJson (s : Suggestion) : suggestion s.toJson = pure s := by
  obtain ⟨title, replacement⟩ := s
  cases replacement <;> simp [suggestion, toJson, optionField, nullable]

theorem Diagnostic.read_toJson (d : Diagnostic) : diagnostic d.toJson = pure d := by
  obtain ⟨code, severity, message, span, notes, suggestions⟩ := d
  have hnotes : list note (.arr (notes.map Note.toJson)) = pure notes :=
    list_map (Nat.le_refl _) fun n _ _ => n.read_toJson
  have hsuggestions :
      list suggestion (.arr (suggestions.map Suggestion.toJson)) = pure suggestions :=
    list_map (Nat.le_refl _) fun s _ _ => s.read_toJson
  by_cases hn : notes = [] <;> by_cases hs : suggestions = [] <;>
    simp [diagnostic, toJson, listField, Severity.read_text, hn, hs, hnotes, hsuggestions]

theorem Diagnostic.mem_keys_iff (d : Diagnostic) :
    ("notes" ∈ d.toJson.keys ↔ d.notes ≠ []) ∧
      ("suggestions" ∈ d.toJson.keys ↔ d.suggestions ≠ []) := by
  by_cases hn : d.notes = [] <;> by_cases hs : d.suggestions = [] <;>
    simp [toJson, Json.keys, listField, hn, hs]

/-! ## All documents -/

/-- A value is read as `a`, whatever identity is free, and no identity is given out. -/
def Document.Recovers {α : Type} (read : Json → Read α) (j : Json) (a : α) : Prop :=
  ∀ next, (read j).run next = some (a, next)

theorem Document.recovers_of_eq {α : Type} {read : Json → Read α} {j : Json} {a : α}
    (h : read j = pure a) : Recovers read j a := by
  intro next
  rw [h]
  rfl

/-- **Reading undoes writing.** Every unit whose doubles are finite is read back from its JSON form
as it was, and so is every declaration, statement, expression, block, pattern, written type and
literal, wherever it stands. Every diagnostic is read back as well, although it has fields for notes
and suggestions only when there are any, and a note has one for its place only when it has a
place. -/
theorem toJson_recovered :
    (∀ u : SourceUnit, u.isFinite = true → Recovers sourceUnit u.toJson u) ∧
    (∀ d : Decl, d.isFinite = true → Recovers (decl d.toJson.height) d.toJson d) ∧
    (∀ isNested,
      (∀ s : Stmt, s.isFinite = true → Recovers (stmt s.toJson.height isNested) s.toJson s) ∧
      (∀ e : Expr, e.isFinite = true → Recovers (expr e.toJson.height isNested) e.toJson e) ∧
      (∀ b : Block, b.isFinite = true → Recovers (block b.toJson.height isNested) b.toJson b) ∧
      (∀ p : Pattern, p.isFinite = true →
        Recovers (pattern p.toJson.height isNested) p.toJson p) ∧
      (∀ t : TypeExpr, Recovers (typeExpr t.toJson.height isNested) t.toJson t) ∧
      (∀ l : Literal, l.isFinite = true → Recovers (literal isNested) l.toJson l)) ∧
    (∀ d : Diagnostic, Recovers diagnostic d.toJson d ∧
      ("notes" ∈ d.toJson.keys ↔ d.notes ≠ []) ∧
      ("suggestions" ∈ d.toJson.keys ↔ d.suggestions ≠ [])) ∧
    (∀ n : Note, Recovers note n.toJson n ∧ ("span" ∈ n.toJson.keys ↔ n.span.isSome = true)) := by
  refine ⟨?_, ?_, fun isNested => ⟨?_, ?_, ?_, ?_, ?_, ?_⟩, ?_, ?_⟩
  · exact fun u hu => recovers_of_eq (u.read_toJson hu)
  · exact fun d hd => recovers_of_eq (d.read_toJson hd (Nat.le_refl _))
  · exact fun s hs => recovers_of_eq (s.read_toJson hs (Nat.le_refl _))
  · exact fun e he => recovers_of_eq (e.read_toJson he (Nat.le_refl _))
  · exact fun b hb => recovers_of_eq (b.read_toJson hb (Nat.le_refl _))
  · exact fun p hp => recovers_of_eq (p.read_toJson hp (Nat.le_refl _))
  · exact fun t => recovers_of_eq (t.read_toJson (Nat.le_refl _))
  · exact fun l hl => recovers_of_eq (l.read_toJson hl)
  · exact fun d => ⟨recovers_of_eq d.read_toJson, d.mem_keys_iff⟩
  · exact fun n => ⟨recovers_of_eq n.read_toJson, n.span_mem_keys_iff⟩

/-- A unit with a `let` of a double and a range pattern is read back. -/
theorem toJson_recovered_script :
    let n : Node := ⟨⟨1⟩, {}⟩
    let arm : MatchArm := ⟨n, .range n (.int 0) (.float 2.5) true, none, .literal n (.float 1.5)⟩
    let u : SourceUnit := ⟨n, "m", [.script (.letBind n (.bare n "x") none false
      (.matchOn n (.literal n (.float 0.5)) [arm]))]⟩
    u.isFinite = true ∧ Recovers sourceUnit u.toJson u := by
  intro n arm u
  have hfinite : u.isFinite = true := by decide
  exact ⟨hfinite, toJson_recovered.1 u hfinite⟩

end UnitAnalysis
