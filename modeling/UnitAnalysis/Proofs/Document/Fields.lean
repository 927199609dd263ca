import UnitAnalysis.Document.Reader
import UnitAnalysis.Document.Writer

/-!
# Reading what was written

Reading a written value gives what it was written from and gives out no identity, so it equals a
pure computation; that is how all statements about readers are put here. A field is found by passing
over those with other names, and a part of a value is never higher than the value, so that the
readers do not run out of their count.
-/

set_option autoImplicit false

namespace UnitAnalysis

attribute [simp] Json.isReadable Json.allReadable Json.fieldsReadable

@[simp] theorem Json.height_arr (items : List Json) :
    (arr items).height = heightAll items + 1 := by rw [height]

@[simp] theorem Json.height_obj (fields : List (String × Json)) :
    (obj fields).height = heightFields fields + 1 := by rw [height]

@[simp] theorem Json.heightFields_nil_le (n : Nat) : heightFields [] ≤ n :=
  Nat.zero_le n

@[simp] theorem Json.heightFields_cons_le {key : String} {j : Json} {fields : List (String × Json)}
    {n : Nat} : heightFields ((key, j) :: fields) ≤ n ↔ j.height ≤ n ∧ heightFields fields ≤ n := by
  rw [heightFields, Nat.max_le]

@[simp] theorem UInt64.isReadable_toJson (n : UInt64) : (toJson n).isReadable = true := by
  simp [toJson]

@[simp] theorem Span.isReadable_toJson (s : Span) : s.toJson.isReadable = true := by
  simp [toJson]

@[simp] theorem Node.fieldsReadable_append (n : Node) (fields : List (String × Json)) :
    Json.fieldsReadable (n.fields ++ fields) = Json.fieldsReadable fields := by
  simp [Node.fields]

theorem Option.isReadable_toJson {α : Type} {write : α → Json}
    (h : ∀ a, (write a).isReadable = true) (o : Option α) :
    (toJson write o).isReadable = true := by
  cases o with
  | none => rfl
  | some a => exact h a

@[simp] theorem Option.isReadable_toJson_str (o : Option String) :
    (toJson .str o).isReadable = true :=
  isReadable_toJson (fun _ => rfl) o

theorem Json.allReadable_map {α : Type} {write : α → Json}
    (h : ∀ a, (write a).isReadable = true) (as : List α) : allReadable (as.map write) = true := by
  induction as with
  | nil => rfl
  | cons a as ih => rw [List.map_cons, allReadable, h a, ih, Bool.and_self]

namespace Document

variable {α : Type} {name key : String} {fields : List (String × Json)}

/-! ## Fields -/

@[simp] theorem Read.ofOption_some (a : α) : Read.ofOption (some a) = pure a := rfl

theorem field?_cons_of_ne (h : key ≠ name) (j : Json) :
    field? name ((key, j) :: fields) = field? name fields := by
  simp [field?, h]

theorem field?_cons_self (h : name ∉ fields.map Prod.fst) (j : Json) :
    field? name ((name, j) :: fields) = some (some j) := by
  have hothers : fields.filter (fun f => f.1 = name) = [] := by
    refine List.filter_eq_nil_iff.2 fun f hf hname => h ?_
    exact of_decide_eq_true hname ▸ List.mem_map_of_mem hf
  simp [field?, hothers]

@[simp] theorem required_cons_of_ne (h : key ≠ name) (read : Json → Read α) (j : Json) :
    required name read ((key, j) :: fields) = required name read fields := by
  unfold required
  rw [field?_cons_of_ne h]

@[simp] theorem required_cons_self (h : name ∉ fields.map Prod.fst) (read : Json → Read α)
    (j : Json) : required name read ((name, j) :: fields) = read j := by
  unfold required
  rw [field?_cons_self h, Read.ofOption_some, pure_bind]

@[simp] theorem defaulted_nil (default : Read α) (read : Json → Read α) :
    defaulted name default read [] = default := rfl

@[simp] theorem defaulted_cons_of_ne (h : key ≠ name) (default : Read α) (read : Json → Read α)
    (j : Json) : defaulted name default read ((key, j) :: fields) =
      defaulted name default read fields := by
  unfold defaulted
  rw [field?_cons_of_ne h]

@[simp] theorem defaulted_cons_self (h : name ∉ fields.map Prod.fst) (default : Read α)
    (read : Json → Read α) (j : Json) :
    defaulted name default read ((name, j) :: fields) = read j := by
  unfold defaulted
  rw [field?_cons_self h, Read.ofOption_some, pure_bind]

@[simp] theorem optional_nil (read : Json → Read α) : optional name read [] = pure none := rfl

@[simp] theorem optional_cons_of_ne (h : key ≠ name) (read : Json → Read α) (j : Json) :
    optional name read ((key, j) :: fields) = optional name read fields :=
  defaulted_cons_of_ne h _ _ j

@[simp] theorem optional_cons_self (h : name ∉ fields.map Prod.fst) (read : Json → Read α)
    (j : Json) : optional name read ((name, j) :: fields) = nullable read j :=
  defaulted_cons_self h _ _ j

@[simp] theorem object_obj (read : List (String × Json) → Read α) :
    object read (.obj fields) = read fields := rfl

variable {isNested : Bool} {fuel : Nat} {read : Json → Read α}

@[simp] theorem tagged_obj (h : Json.fieldsReadable fields = true)
    (read : List (String × Json) → Read α) : tagged isNested read (.obj fields) = read fields := by
  simp [tagged, h]

@[simp] theorem tag_cons_self {form : String} {forms : List String}
    (h : name ∉ fields.map Prod.fst) (hform : form ∈ forms) :
    tag isNested name forms ((name, .str form) :: fields) = pure form := by
  rw [tag, required_cons_self h]
  exact if_pos hform

/-! ## Values without parts -/

@[simp] theorem text_str (s : String) : text (.str s) = pure s := rfl

@[simp] theorem truth_bool (b : Bool) : truth (.bool b) = pure b := rfl

@[simp] theorem word_toJson (n : UInt64) : word (UInt64.toJson n) = pure n := by
  have hrange : (0 : Int) ≤ n.toNat ∧ (n.toNat : Int) < Int.pow 2 64 :=
    ⟨Int.natCast_nonneg _, Int.ofNat_lt.2 n.toNat_lt⟩
  rw [UInt64.toJson, word, if_pos hrange, Int.toNat_natCast, UInt64.ofNat_toNat]

theorem signed_toInt (n : Int64) : signed (.int n.toInt) = pure n := by
  have hrange : -Int.pow 2 63 ≤ n.toInt ∧ n.toInt < Int.pow 2 63 := ⟨n.le_toInt, n.toInt_lt⟩
  rw [signed, if_pos hrange, Int64.ofInt_toInt]

theorem double_toJson {x : Float} (h : x.isFinite = true) : double (Float.toJson x) = pure x := by
  rw [Float.toJson, if_pos h, double]

theorem character_singleton (c : Char) : character (.str (String.singleton c)) = pure c := by
  simp [character]

theorem oneOf_str {names : List String} {s : String} (h : s ∈ names) :
    oneOf isNested names (.str s) = pure s := by
  rw [oneOf, if_pos h]

theorem choice_str {options : List (String × α)} {s : String} {a : α}
    (h : options.lookup s = some a) : choice isNested options (.str s) = pure a := by
  have hmem : s ∈ options.map Prod.fst := by
    obtain ⟨l₁, l₂, rfl, -⟩ := List.lookup_eq_some_iff.1 h
    simp
  rw [choice, oneOf_str hmem, pure_bind, h, Read.ofOption_some]

/-! ## Places and identities -/

@[simp] theorem span_toJson (s : Span) : span s.toJson = pure s := by
  simp [span, Span.toJson]

@[simp] theorem node_cons_of_ne (hid : key ≠ "id") (hspan : key ≠ "span") (j : Json) :
    node ((key, j) :: fields) = node fields := by
  simp [node, spanField, hid, hspan]

@[simp] theorem node_fields_append (n : Node) (hid : "id" ∉ fields.map Prod.fst)
    (hspan : "span" ∉ fields.map Prod.fst) : node (n.fields ++ fields) = pure n := by
  have hid' : "id" ∉ (("span", n.span.toJson) :: fields).map Prod.fst := by
    simpa using hid
  simp only [Node.fields, List.cons_append, List.nil_append, node, defaulted_cons_self hid',
    spanField, word_toJson, pure_bind]
  rw [defaulted_cons_of_ne (by decide), defaulted_cons_self hspan, span_toJson]
  rfl

/-! ## Values with parts -/

/-- Fields that can stand after the form, identity and place of an object. -/
def Apart (key : String) (fields : List (String × Json)) : Prop :=
  Json.fieldsReadable fields = true ∧ key ∉ fields.map Prod.fst ∧ "id" ∉ fields.map Prod.fst ∧
    "span" ∉ fields.map Prod.fst

/-- A tagged object is read by its form, once its form, identity and place are known. -/
theorem tagged_form {form : String} {forms : List String}
    (n : Node) (hfields : Apart key fields) (hkey : key ∉ ["id", "span"]) (hform : form ∈ forms)
    (read : Node → List (String × Json) → String → Read α) :
    tagged isNested (fun fields => do
        let n ← node fields
        let form ← tag isNested key forms fields
        read n fields form) (.obj ((key, .str form) :: n.fields ++ fields)) =
      read n ((key, .str form) :: n.fields ++ fields) form := by
  obtain ⟨hreadable, hkeys, hids, hspans⟩ := hfields
  obtain ⟨hid, hspan⟩ : key ≠ "id" ∧ key ≠ "span" := by simpa using hkey
  have hkeys : key ∉ (n.fields ++ fields).map Prod.fst := by
    simp only [Node.fields, List.map_append, List.map_cons, List.map_nil, List.mem_append]
    exact fun h => h.elim hkey hkeys
  have hreadable : Json.fieldsReadable ((key, .str form) :: (n.fields ++ fields)) = true := by
    simp [hreadable]
  rw [List.cons_append, tagged_obj hreadable, node_cons_of_ne hid hspan,
    node_fields_append n hids hspans, pure_bind, tag_cons_self hkeys hform, pure_bind]

/-- The count of a reader reaches into an object. -/
theorem exists_fuel (h : (Json.obj fields).height ≤ fuel) :
    ∃ rest, fuel = rest + 1 ∧ Json.heightFields fields ≤ rest := by
  cases fuel with
  | zero => exact absurd h (Nat.not_succ_le_zero _)
  | succ rest => exact ⟨rest, rfl, Nat.le_of_succ_le_succ h⟩

theorem heightFields_le_of_obj (h : (Json.obj fields).height ≤ fuel) :
    Json.heightFields fields ≤ fuel := by
  rw [Json.height_obj] at h
  omega

theorem heightFields_le_of_form {j : Json}
    (h : (Json.obj ((key, j) :: fields)).height ≤ fuel) : Json.heightFields fields ≤ fuel :=
  (Json.heightFields_cons_le.1 (heightFields_le_of_obj h)).2

theorem heightFields_le_of_append {n : Node} {f : String × Json}
    (h : Json.heightFields (f :: n.fields ++ fields) ≤ fuel) : Json.heightFields fields ≤ fuel := by
  simp only [Node.fields, List.cons_append, List.nil_append, Json.heightFields] at h
  omega

theorem height_arr_cons_le {j : Json} {js : List Json} :
    (Json.arr (j :: js)).height ≤ fuel → j.height ≤ fuel ∧ (Json.arr js).height ≤ fuel := by
  simp only [Json.height_arr, Json.heightAll]
  omega

theorem list_cons {j : Json} {js : List Json} {a : α} {as : List α}
    (hhead : read j = pure a) (htail : list read (.arr js) = pure as) :
    list read (.arr (j :: js)) = pure (a :: as) := by
  have htail : all read js = pure as := htail
  show all read (j :: js) = pure (a :: as)
  rw [all, hhead, pure_bind, htail, pure_bind]

theorem list_map {write : α → Json} {as : List α} (hfuel : (Json.arr (as.map write)).height ≤ fuel)
    (h : ∀ a ∈ as, (write a).height ≤ fuel → read (write a) = pure a) :
    list read (.arr (as.map write)) = pure as := by
  induction as with
  | nil => rfl
  | cons a as ih =>
    obtain ⟨hhead, htail⟩ := height_arr_cons_le hfuel
    obtain ⟨ha, has⟩ := List.forall_mem_cons.1 h
    exact list_cons (ha hhead) (ih htail has)

theorem nullable_of_ne {j : Json} {a : α} (hj : j ≠ .null)
    (h : read j = pure a) : nullable read j = pure (some a) := by
  cases j with
  | null => exact absurd rfl hj
  | _ => simp only [nullable, h, pure_bind]

theorem nullable_toJson {write : α → Json} {o : Option α}
    (hwrite : ∀ a, write a ≠ .null) (hfuel : (Option.toJson write o).height ≤ fuel)
    (h : ∀ a ∈ o, (write a).height ≤ fuel → read (write a) = pure a) :
    nullable read (Option.toJson write o) = pure o := by
  cases o with
  | none => rfl
  | some a => exact nullable_of_ne (hwrite a) (h a rfl hfuel)

@[simp] theorem nullable_text (o : Option String) :
    nullable text (Option.toJson .str o) = pure o := by
  cases o <;> rfl

end Document

end UnitAnalysis
