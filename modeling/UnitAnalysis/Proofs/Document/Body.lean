import UnitAnalysis.Proofs.Document.Pattern

/-!
# Reading bodies back

Expressions, statements and blocks with finite doubles are read back as they were written, by
induction on the syntax. The reader of an expression hands a smaller count to the readers of its
parts (`Document.Parts.upTo`), and each form finds its own fields among those of its object.
-/

set_option autoImplicit false

namespace UnitAnalysis

open Document

variable {fuel : Nat} {isNested : Bool}

/-- The readers of parts that are at most `fuel` deep. -/
def Document.Parts.upTo (fuel : Nat) : Parts where
  expr := Document.expr fuel true
  block := Document.block fuel true
  pattern := Document.pattern fuel true
  param := Document.lambdaParam fuel
  arm := Document.matchArm fuel true
  init := Document.fieldInit fuel
  handler := Document.catchClause fuel
  binding := Document.concurrentBinding fuel

/-! ## Operators and parameters -/

theorem BinaryOp.read_tag (op : BinaryOp) :
    choice isNested binaryOps (.str op.tag) = pure op :=
  choice_str (by cases op <;> rfl)

theorem UnaryOp.read_tag (op : UnaryOp) : choice isNested unaryOps (.str op.tag) = pure op :=
  choice_str (by cases op <;> rfl)

theorem LambdaParam.allReadable_toJson (params : List LambdaParam) :
    Json.allReadable (params.map toJson) = true :=
  Json.allReadable_map (fun p => by simp [toJson]) params

theorem LambdaParam.read_list {params : List LambdaParam}
    (h : (Json.arr (params.map toJson)).height ≤ fuel) :
    list (lambdaParam fuel) (.arr (params.map toJson)) = pure params := by
  refine list_map h fun p _ hp => ?_
  have hfields := heightFields_le_of_obj hp
  simp [Node.fields] at hfields
  simp [lambdaParam, toJson, Node.fields, Document.node, spanField, TypeExpr.read_option, hfields]

/-! ## All of a written body can be read -/

mutual

theorem Expr.isReadable_toJson : ∀ e : Expr, e.toJson.isReadable = true
  | .literal _ _ | .ident _ _ => by simp [Expr.toJson]
  | .breakLoop _ | .continueLoop _ => by simp [Expr.toJson, Node.fields]
  | .unary _ _ e | .fieldAccess _ e _ | .throw _ e | .await _ e => by
    simp [Expr.toJson, e.isReadable_toJson]
  | .binary _ _ left right | .index _ left right | .assign _ left right => by
    simp [Expr.toJson, left.isReadable_toJson, right.isReadable_toJson]
  | .call _ e args | .methodCall _ e _ _ args => by
    simp [Expr.toJson, e.isReadable_toJson, Expr.allReadable_toJsonAll args]
  | .ifElse _ cond thenBranch elseBranch => by
    simp [Expr.toJson, cond.isReadable_toJson, thenBranch.isReadable_toJson,
      Expr.isReadable_toJsonOption elseBranch]
  | .matchOn _ scrutinee arms => by
    simp [Expr.toJson, scrutinee.isReadable_toJson, Expr.allReadable_armsToJson arms]
  | .block _ body | .race _ body => by simp [Expr.toJson, body.isReadable_toJson]
  | .lambda _ _ _ body => by
    simp [Expr.toJson, LambdaParam.allReadable_toJson, body.isReadable_toJson]
  | .whileLoop _ e body | .forLoop _ _ e body | .timeout _ e body => by
    simp [Expr.toJson, e.isReadable_toJson, body.isReadable_toJson]
  | .ret _ value => by simp [Expr.toJson, Expr.isReadable_toJsonOption value]
  | .arrayLit _ elements | .tupleLit _ elements => by
    simp [Expr.toJson, Expr.allReadable_toJsonAll elements]
  | .structLit _ _ fields => by simp [Expr.toJson, Expr.allReadable_initsToJson fields]
  | .tryCatch _ body catches cleanup => by
    simp [Expr.toJson, body.isReadable_toJson, Expr.allReadable_catchesToJson catches,
      Block.isReadable_toJsonOption cleanup]
  | .concurrent _ bindings => by simp [Expr.toJson, Expr.allReadable_bindingsToJson bindings]

theorem Expr.isReadable_toJsonOption : ∀ o : Option Expr, (Expr.toJsonOption o).isReadable = true
  | none => rfl
  | some e => e.isReadable_toJson

theorem Expr.allReadable_toJsonAll :
    ∀ es : List Expr, Json.allReadable (Expr.toJsonAll es) = true
  | [] => rfl
  | e :: es => by simp [Expr.toJsonAll, e.isReadable_toJson, Expr.allReadable_toJsonAll es]

theorem Expr.allReadable_armsToJson :
    ∀ arms : List MatchArm, Json.allReadable (Expr.armsToJson arms) = true
  | [] => rfl
  | ⟨_, _, guard, body⟩ :: arms => by
    simp [Expr.armsToJson, MatchArm.toJson, Expr.isReadable_toJsonOption guard,
      body.isReadable_toJson, Expr.allReadable_armsToJson arms]

theorem Expr.allReadable_initsToJson :
    ∀ inits : List FieldInit, Json.allReadable (Expr.initsToJson inits) = true
  | [] => rfl
  | ⟨_, _, value⟩ :: inits => by
    simp [Expr.initsToJson, value.isReadable_toJson, Expr.allReadable_initsToJson inits]

theorem Expr.allReadable_catchesToJson :
    ∀ catches : List CatchClause, Json.allReadable (Expr.catchesToJson catches) = true
  | [] => rfl
  | ⟨_, _, _, body⟩ :: catches => by
    simp [Expr.catchesToJson, body.isReadable_toJson, Expr.allReadable_catchesToJson catches]

theorem Expr.allReadable_bindingsToJson :
    ∀ bindings : List ConcurrentBinding, Json.allReadable (Expr.bindingsToJson bindings) = true
  | [] => rfl
  | ⟨_, _, value⟩ :: bindings => by
    simp [Expr.bindingsToJson, value.isReadable_toJson, Expr.allReadable_bindingsToJson bindings]

theorem Block.isReadable_toJson : ∀ b : Block, b.toJson.isReadable = true
  | ⟨_, stmts, result⟩ => by
    simp [Block.toJson, Stmt.allReadable_toJsonAll stmts, Expr.isReadable_toJsonOption result]

theorem Block.isReadable_toJsonOption : ∀ o : Option Block, (Block.toJsonOption o).isReadable = true
  | none => rfl
  | some b => b.isReadable_toJson

theorem Stmt.isReadable_toJson : ∀ s : Stmt, s.toJson.isReadable = true
  | .letBind _ _ _ _ value | .expr _ value => by simp [Stmt.toJson, value.isReadable_toJson]

theorem Stmt.allReadable_toJsonAll :
    ∀ ss : List Stmt, Json.allReadable (Stmt.toJsonAll ss) = true
  | [] => rfl
  | s :: ss => by simp [Stmt.toJsonAll, s.isReadable_toJson, Stmt.allReadable_toJsonAll ss]

end

attribute [simp] Expr.isReadable_toJson Expr.isReadable_toJsonOption Expr.allReadable_toJsonAll
  Expr.allReadable_armsToJson Expr.allReadable_initsToJson Expr.allReadable_catchesToJson
  Expr.allReadable_bindingsToJson Block.isReadable_toJson Block.isReadable_toJsonOption
  Stmt.isReadable_toJson Stmt.allReadable_toJsonAll LambdaParam.allReadable_toJson

theorem Expr.toJson_ne_null (e : Expr) : e.toJson ≠ .null := by
  cases e <;> simp [toJson]

theorem Block.toJson_ne_null (b : Block) : b.toJson ≠ .null := by
  cases b
  simp [toJson]

/-! ## Forms -/

/-- An expression is read by its form, with the parts of its fields one level lower. -/
theorem Expr.read_form {form : String} {node : Node} {fields : List (String × Json)} {e : Expr}
    (h : (Json.obj (("kind", .str form) :: node.fields ++ fields)).height ≤ fuel)
    (hform : form ∈ exprForms) (hfields : Apart "kind" fields)
    (hread : ∀ rest, Json.heightFields fields ≤ rest →
      exprOf (.upTo rest) node (("kind", .str form) :: node.fields ++ fields) form = pure e) :
    expr fuel isNested (.obj (("kind", .str form) :: node.fields ++ fields)) = pure e := by
  obtain ⟨rest, rfl, hrest⟩ := exists_fuel h
  refine Eq.trans (tagged_form node hfields (by decide) hform (exprOf (.upTo rest))) ?_
  exact hread rest (heightFields_le_of_append hrest)

mutual

theorem Expr.read_toJson : ∀ (e : Expr) {fuel : Nat} {isNested : Bool}, e.isFinite = true →
    e.toJson.height ≤ fuel → expr fuel isNested e.toJson = pure e
  | .literal _ value, _, _, hfinite, h => by
    have hvalue : value.isFinite = true := by simpa [Expr.isFinite] using hfinite
    refine Expr.read_form h (by decide) (by simp [Apart]) fun rest _ => ?_
    simp [exprOf, Node.fields, value.read_toJson hvalue]
  | .ident _ _, _, _, _, h | .breakLoop _, _, _, _, h | .continueLoop _, _, _, _, h => by
    refine Expr.read_form h (by decide) (by simp [Apart]) fun rest _ => ?_
    simp [exprOf, Node.fields]
  | .unary _ _ e, _, _, hfinite, h | .fieldAccess _ e _, _, _, hfinite, h
  | .throw _ e, _, _, hfinite, h | .await _ e, _, _, hfinite, h => by
    have he : e.isFinite = true := by simpa [Expr.isFinite] using hfinite
    refine Expr.read_form h (by decide) (by simp [Apart]) fun rest hrest => ?_
    simp at hrest
    simp [exprOf, Node.fields, Parts.upTo, UnaryOp.read_tag, e.read_toJson he, hrest]
  | .binary _ _ left right, _, _, hfinite, h | .index _ left right, _, _, hfinite, h
  | .assign _ left right, _, _, hfinite, h => by
    obtain ⟨hleft, hright⟩ : left.isFinite = true ∧ right.isFinite = true := by
      simpa [Expr.isFinite] using hfinite
    refine Expr.read_form h (by decide) (by simp [Apart]) fun rest hrest => ?_
    simp at hrest
    simp [exprOf, Node.fields, Parts.upTo, BinaryOp.read_tag, left.read_toJson hleft,
      right.read_toJson hright, hrest]
  | .call _ e args, _, _, hfinite, h | .methodCall _ e _ _ args, _, _, hfinite, h => by
    obtain ⟨he, hargs⟩ : e.isFinite = true ∧ Expr.allFinite args = true := by
      simpa [Expr.isFinite] using hfinite
    refine Expr.read_form h (by decide) (by simp [Apart]) fun rest hrest => ?_
    simp at hrest
    simp [exprOf, Node.fields, Parts.upTo, e.read_toJson he, Expr.read_toJsonAll args hargs,
      hrest]
  | .ifElse _ cond thenBranch elseBranch, _, _, hfinite, h => by
    obtain ⟨hcond, hthen, helse⟩ : cond.isFinite = true ∧
        thenBranch.isFinite = true ∧ Expr.isFiniteOption elseBranch = true := by
      simpa [Expr.isFinite, and_assoc] using hfinite
    refine Expr.read_form h (by decide) (by simp [Apart]) fun rest hrest => ?_
    simp at hrest
    simp [exprOf, Node.fields, Parts.upTo, cond.read_toJson hcond, thenBranch.read_toJson hthen,
      Expr.read_toJsonOption elseBranch helse, hrest]
  | .matchOn _ scrutinee arms, _, _, hfinite, h => by
    obtain ⟨hscrutinee, harms⟩ : scrutinee.isFinite = true ∧ Expr.armsFinite arms = true := by
      simpa [Expr.isFinite] using hfinite
    refine Expr.read_form h (by decide) (by simp [Apart]) fun rest hrest => ?_
    simp at hrest
    simp [exprOf, Node.fields, Parts.upTo, scrutinee.read_toJson hscrutinee,
      Expr.read_armsToJson arms harms, hrest]
  | .block _ body, _, _, hfinite, h | .race _ body, _, _, hfinite, h
  | .lambda _ _ _ body, _, _, hfinite, h => by
    have hbody : body.isFinite = true := by simpa [Expr.isFinite] using hfinite
    refine Expr.read_form h (by decide) (by simp [Apart]) fun rest hrest => ?_
    simp at hrest
    simp [exprOf, Node.fields, Parts.upTo, LambdaParam.read_list, body.read_toJson hbody, hrest]
  | .whileLoop _ e body, _, _, hfinite, h | .timeout _ e body, _, _, hfinite, h => by
    obtain ⟨he, hbody⟩ : e.isFinite = true ∧ body.isFinite = true := by
      simpa [Expr.isFinite] using hfinite
    refine Expr.read_form h (by decide) (by simp [Apart]) fun rest hrest => ?_
    simp at hrest
    simp [exprOf, Node.fields, Parts.upTo, e.read_toJson he, body.read_toJson hbody, hrest]
  | .forLoop _ pattern iterable body, _, _, hfinite, h => by
    obtain ⟨hpattern, hiterable, hbody⟩ : pattern.isFinite = true ∧
        iterable.isFinite = true ∧ body.isFinite = true := by
      simpa [Expr.isFinite, and_assoc] using hfinite
    refine Expr.read_form h (by decide) (by simp [Apart]) fun rest hrest => ?_
    simp at hrest
    simp [exprOf, Node.fields, Parts.upTo, pattern.read_toJson hpattern,
      iterable.read_toJson hiterable, body.read_toJson hbody, hrest]
  | .ret _ value, _, _, hfinite, h => by
    have hvalue : Expr.isFiniteOption value = true := by simpa [Expr.isFinite] using hfinite
    refine Expr.read_form h (by decide) (by simp [Apart]) fun rest hrest => ?_
    simp at hrest
    simp [exprOf, Node.fields, Parts.upTo, Expr.read_toJsonOption value hvalue, hrest]
  | .arrayLit _ elements, _, _, hfinite, h | .tupleLit _ elements, _, _, hfinite, h => by
    have helements : Expr.allFinite elements = true := by simpa [Expr.isFinite] using hfinite
    refine Expr.read_form h (by decide) (by simp [Apart]) fun rest hrest => ?_
    simp at hrest
    simp [exprOf, Node.fields, Parts.upTo, Expr.read_toJsonAll elements helements, hrest]
  | .structLit _ _ fields, _, _, hfinite, h => by
    have hfields : Expr.initsFinite fields = true := by simpa [Expr.isFinite] using hfinite
    refine Expr.read_form h (by decide) (by simp [Apart]) fun rest hrest => ?_
    simp at hrest
    simp [exprOf, Node.fields, Parts.upTo, Expr.read_initsToJson fields hfields, hrest]
  | .tryCatch _ body catches cleanup, _, _, hfinite, h => by
    obtain ⟨hbody, hcatches, hcleanup⟩ : body.isFinite = true ∧
        Expr.catchesFinite catches = true ∧ Block.isFiniteOption cleanup = true := by
      simpa [Expr.isFinite, and_assoc] using hfinite
    refine Expr.read_form h (by decide) (by simp [Apart]) fun rest hrest => ?_
    simp at hrest
    simp [exprOf, Node.fields, Parts.upTo, body.read_toJson hbody,
      Expr.read_catchesToJson catches hcatches, Block.read_toJsonOption cleanup hcleanup, hrest]
  | .concurrent _ bindings, _, _, hfinite, h => by
    have hbindings : Expr.bindingsFinite bindings = true := by simpa [Expr.isFinite] using hfinite
    refine Expr.read_form h (by decide) (by simp [Apart]) fun rest hrest => ?_
    simp at hrest
    simp [exprOf, Node.fields, Parts.upTo, Expr.read_bindingsToJson bindings hbindings, hrest]

theorem Expr.read_toJsonOption : ∀ (o : Option Expr) {fuel : Nat} {isNested : Bool},
    Expr.isFiniteOption o = true → (Expr.toJsonOption o).height ≤ fuel →
      nullable (expr fuel isNested) (Expr.toJsonOption o) = pure o
  | none, _, _, _, _ => rfl
  | some e, _, _, hfinite, h => nullable_of_ne e.toJson_ne_null (e.read_toJson hfinite h)

theorem Expr.read_toJsonAll : ∀ (es : List Expr) {fuel : Nat} {isNested : Bool},
    Expr.allFinite es = true → (Json.arr (Expr.toJsonAll es)).height ≤ fuel →
      list (expr fuel isNested) (.arr (Expr.toJsonAll es)) = pure es
  | [], _, _, _, _ => rfl
  | e :: es, _, _, hfinite, h => by
    obtain ⟨he, hes⟩ : e.isFinite = true ∧ Expr.allFinite es = true := by
      simpa [Expr.allFinite] using hfinite
    obtain ⟨hhead, htail⟩ := height_arr_cons_le h
    exact list_cons (e.read_toJson he hhead) (Expr.read_toJsonAll es hes htail)

theorem Expr.read_armsToJson : ∀ (arms : List MatchArm) {fuel : Nat} {isNested : Bool},
    Expr.armsFinite arms = true → (Json.arr (Expr.armsToJson arms)).height ≤ fuel →
      list (matchArm fuel isNested) (.arr (Expr.armsToJson arms)) = pure arms
  | [], _, _, _, _ => rfl
  | arm :: arms, _, _, hfinite, h => by
    obtain ⟨harm, harms⟩ : arm.isFinite = true ∧ Expr.armsFinite arms = true := by
      simpa [Expr.armsFinite] using hfinite
    obtain ⟨hhead, htail⟩ := height_arr_cons_le h
    exact list_cons (arm.read_toJson harm hhead) (Expr.read_armsToJson arms harms htail)

theorem MatchArm.read_toJson : ∀ (arm : MatchArm) {fuel : Nat} {isNested : Bool},
    arm.isFinite = true → arm.toJson.height ≤ fuel → matchArm fuel isNested arm.toJson = pure arm
  | ⟨_, pattern, guard, body⟩, _, _, hfinite, h => by
    obtain ⟨hpattern, hguard, hbody⟩ : pattern.isFinite = true ∧
        Expr.isFiniteOption guard = true ∧ body.isFinite = true := by
      simpa [MatchArm.isFinite, and_assoc] using hfinite
    obtain ⟨rest, rfl, hrest⟩ := exists_fuel h
    simp [Node.fields] at hrest
    simp [MatchArm.toJson, matchArm, Node.fields, Document.node, spanField,
      pattern.read_toJson hpattern, Expr.read_toJsonOption guard hguard, body.read_toJson hbody,
      hrest]

theorem Expr.read_initsToJson : ∀ (inits : List FieldInit) {fuel : Nat},
    Expr.initsFinite inits = true → (Json.arr (Expr.initsToJson inits)).height ≤ fuel →
      list (fieldInit fuel) (.arr (Expr.initsToJson inits)) = pure inits
  | [], _, _, _ => rfl
  | ⟨_, _, value⟩ :: inits, _, hfinite, h => by
    obtain ⟨hvalue, hinits⟩ : value.isFinite = true ∧ Expr.initsFinite inits = true := by
      simpa [Expr.initsFinite] using hfinite
    obtain ⟨hhead, htail⟩ := height_arr_cons_le h
    refine list_cons ?_ (Expr.read_initsToJson inits hinits htail)
    obtain ⟨rest, rfl, hrest⟩ := exists_fuel hhead
    simp at hrest
    simp [fieldInit, spanField, value.read_toJson hvalue, hrest]

theorem Expr.read_catchesToJson : ∀ (catches : List CatchClause) {fuel : Nat},
    Expr.catchesFinite catches = true → (Json.arr (Expr.catchesToJson catches)).height ≤ fuel →
      list (catchClause fuel) (.arr (Expr.catchesToJson catches)) = pure catches
  | [], _, _, _ => rfl
  | ⟨_, _, _, body⟩ :: catches, _, hfinite, h => by
    obtain ⟨hbody, hcatches⟩ : body.isFinite = true ∧ Expr.catchesFinite catches = true := by
      simpa [Expr.catchesFinite] using hfinite
    obtain ⟨hhead, htail⟩ := height_arr_cons_le h
    refine list_cons ?_ (Expr.read_catchesToJson catches hcatches htail)
    obtain ⟨rest, rfl, hrest⟩ := exists_fuel hhead
    simp [Node.fields] at hrest
    simp [catchClause, Node.fields, Document.node, spanField, TypeExpr.read_option,
      body.read_toJson hbody, hrest]

theorem Expr.read_bindingsToJson : ∀ (bindings : List ConcurrentBinding) {fuel : Nat},
    Expr.bindingsFinite bindings = true → (Json.arr (Expr.bindingsToJson bindings)).height ≤ fuel →
      list (concurrentBinding fuel) (.arr (Expr.bindingsToJson bindings)) = pure bindings
  | [], _, _, _ => rfl
  | ⟨_, _, value⟩ :: bindings, _, hfinite, h => by
    obtain ⟨hvalue, hbindings⟩ : value.isFinite = true ∧ Expr.bindingsFinite bindings = true := by
      simpa [Expr.bindingsFinite] using hfinite
    obtain ⟨hhead, htail⟩ := height_arr_cons_le h
    refine list_cons ?_ (Expr.read_bindingsToJson bindings hbindings htail)
    obtain ⟨rest, rfl, hrest⟩ := exists_fuel hhead
    simp [Node.fields] at hrest
    simp [concurrentBinding, Node.fields, Document.node, spanField, value.read_toJson hvalue,
      hrest]

theorem Block.read_toJson : ∀ (b : Block) {fuel : Nat} {isNested : Bool}, b.isFinite = true →
    b.toJson.height ≤ fuel → block fuel isNested b.toJson = pure b
  | ⟨_, stmts, result⟩, _, _, hfinite, h => by
    obtain ⟨hstmts, hresult⟩ : Stmt.allFinite stmts = true ∧ Expr.isFiniteOption result = true := by
      simpa [Block.isFinite] using hfinite
    obtain ⟨rest, rfl, hrest⟩ := exists_fuel h
    simp [Node.fields] at hrest
    simp [Block.toJson, block, Node.fields, Document.node, spanField,
      Stmt.read_toJsonAll stmts hstmts, Expr.read_toJsonOption result hresult, hrest]

theorem Block.read_toJsonOption : ∀ (o : Option Block) {fuel : Nat} {isNested : Bool},
    Block.isFiniteOption o = true → (Block.toJsonOption o).height ≤ fuel →
      nullable (block fuel isNested) (Block.toJsonOption o) = pure o
  | none, _, _, _, _ => rfl
  | some b, _, _, hfinite, h => nullable_of_ne b.toJson_ne_null (b.read_toJson hfinite h)

theorem Stmt.read_toJson : ∀ (s : Stmt) {fuel : Nat} {isNested : Bool}, s.isFinite = true →
    s.toJson.height ≤ fuel → stmt fuel isNested s.toJson = pure s
  | .letBind node pattern _ _ value, _, _, hfinite, h => by
    obtain ⟨hpattern, hvalue⟩ : pattern.isFinite = true ∧ value.isFinite = true := by
      simpa [Stmt.isFinite] using hfinite
    obtain ⟨rest, rfl, hrest⟩ := exists_fuel h
    simp [Node.fields] at hrest
    simp [Stmt.toJson, stmt, stmtForms, Node.fields, Document.node, spanField,
      pattern.read_toJson hpattern, TypeExpr.read_option, value.read_toJson hvalue, hrest]
  | .expr node value, _, _, hfinite, h => by
    have hvalue : value.isFinite = true := by simpa [Stmt.isFinite] using hfinite
    obtain ⟨rest, rfl, hrest⟩ := exists_fuel h
    simp [Node.fields] at hrest
    simp [Stmt.toJson, stmt, stmtForms, Node.fields, Document.node, spanField,
      value.read_toJson hvalue, hrest]

theorem Stmt.read_toJsonAll : ∀ (ss : List Stmt) {fuel : Nat} {isNested : Bool},
    Stmt.allFinite ss = true → (Json.arr (Stmt.toJsonAll ss)).height ≤ fuel →
      list (stmt fuel isNested) (.arr (Stmt.toJsonAll ss)) = pure ss
  | [], _, _, _, _ => rfl
  | s :: ss, _, _, hfinite, h => by
    obtain ⟨hs, hss⟩ : s.isFinite = true ∧ Stmt.allFinite ss = true := by
      simpa [Stmt.allFinite] using hfinite
    obtain ⟨hhead, htail⟩ := height_arr_cons_le h
    exact list_cons (s.read_toJson hs hhead) (Stmt.read_toJsonAll ss hss htail)

end

end UnitAnalysis
