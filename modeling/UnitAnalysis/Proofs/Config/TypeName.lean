import Mathlib.Data.List.DropRight
import UnitAnalysis.Config.TypeName

/-!
# The texts of types in a configuration

`TypeExpr.WrittenAs` is the grammar of these texts: a name, a type before `?`, or a type in
brackets, with blanks around each of them. The reader knows no grammar. It takes blanks off both
ends, then a last `?` or a pair of brackets, and starts over. It accepts just the texts of the
grammar, and with the one type that a text stands for.
-/

set_option autoImplicit false

namespace UnitAnalysis

/-! ## Blanks, letters and numbers -/

namespace Text

/-- The code points of blanks. -/
def blankPoints : List Nat :=
  [9, 10, 11, 12, 13, 32, 133, 160, 5760, 8192, 8193, 8194, 8195, 8196, 8197, 8198, 8199, 8200,
    8201, 8202, 8232, 8233, 8239, 8287, 12288]

theorem toNat_mem_blankPoints {c : Char} (h : isBlank c = true) : c.toNat ∈ blankPoints := by
  simp only [isBlank, Bool.or_eq_true, Bool.and_eq_true, decide_eq_true_eq] at h
  simp only [blankPoints, List.mem_cons, List.not_mem_nil, or_false]
  omega

/-- No blank is a letter or a number. -/
theorem isLetterOrNumber_of_isBlank {c : Char} (h : isBlank c = true) :
    isLetterOrNumber c = false := by
  have hpoints : blankPoints.all (fun n =>
      !(letterRanges ++ numberRanges).any fun r => r.1 ≤ n && n ≤ r.2) = true := by decide +kernel
  have hc := List.all_eq_true.1 hpoints _ (toNat_mem_blankPoints h)
  rw [List.any_append, Bool.not_eq_true'] at hc
  exact hc

theorem isLetterOrNumber_of_isLetter {c : Char} (h : isLetter c = true) :
    isLetterOrNumber c = true := by
  rw [isLetterOrNumber, h, Bool.true_or]

/-- All of some characters are blanks. -/
def Blanks (cs : List Char) : Prop :=
  ∀ c ∈ cs, isBlank c = true

theorem exists_blanks_trim (cs : List Char) :
    ∃ before after, Blanks before ∧ Blanks after ∧ cs = before ++ trim cs ++ after := by
  have hblanks : ∀ l : List Char, Blanks (l.takeWhile isBlank) := fun l =>
    List.all_eq_true.1 List.all_takeWhile
  let front := cs.dropWhile isBlank
  have hfront : front = trim cs ++ (front.reverse.takeWhile isBlank).reverse := by
    rw [trim, ← List.reverse_append, List.takeWhile_append_dropWhile, List.reverse_reverse]
  refine ⟨cs.takeWhile isBlank, (front.reverse.takeWhile isBlank).reverse, hblanks cs,
    fun c hc => hblanks _ c (List.mem_reverse.1 hc), ?_⟩
  rw [List.append_assoc, ← hfront, List.takeWhile_append_dropWhile]

/-- What is left between blanks, up to a last character that is none. -/
theorem trim_append {before after : List Char} (hbefore : Blanks before) (hafter : Blanks after)
    (cs : List Char) {last : Char} (hlast : isBlank last = false) :
    trim (before ++ cs ++ last :: after) = cs.dropWhile isBlank ++ [last] := by
  have hfront : (before ++ cs ++ last :: after).dropWhile isBlank =
      cs.dropWhile isBlank ++ last :: after := by
    rw [List.append_assoc, List.dropWhile_append_of_pos hbefore, List.dropWhile_append]
    split
    · next hnil => simp [List.isEmpty_iff.1 hnil, hlast]
    · rfl
  have hback : ∀ c ∈ after.reverse, isBlank c = true := fun c hc => hafter c (List.mem_reverse.1 hc)
  rw [trim, hfront]
  simp [List.dropWhile_append_of_pos hback, hlast]

/-- Between blanks, characters that are none are left as they are. -/
theorem trim_of_not_blank {before core after : List Char} (hbefore : Blanks before)
    (hafter : Blanks after) (hcore : ∀ c ∈ core, isBlank c = false) (hne : core ≠ []) :
    trim (before ++ core ++ after) = core := by
  obtain ⟨init, last, rfl⟩ := (List.eq_nil_or_concat' core).resolve_left hne
  rw [List.forall_mem_append, List.forall_mem_singleton] at hcore
  have hinit : init.dropWhile isBlank = init := by
    cases init with
    | nil => rfl
    | cons c cs => exact List.dropWhile_cons_of_neg (by simp [hcore.1 c])
  have htrim := trim_append hbefore hafter init hcore.2
  rwa [hinit, List.append_cons, List.append_assoc before] at htrim

theorem trim_dropWhile (cs : List Char) : trim (cs.dropWhile isBlank) = trim cs := by
  rw [trim, trim, List.dropWhile_idempotent isBlank cs]

end Text

/-! ## The grammar -/

open Text (Blanks isBlank isLetter isLetterOrNumber trim)

/-- A type is written as a text. -/
inductive TypeExpr.WrittenAs : TypeExpr → List Char → Prop
  /-- A letter with letters, numbers and underscores after it. -/
  | named {before after rest : List Char} {first : Char} (hbefore : Blanks before)
      (hfirst : isLetter first = true)
      (hrest : ∀ c ∈ rest, isLetterOrNumber c = true ∨ c = '_') (hafter : Blanks after) :
      WrittenAs (.named {} (String.ofList (first :: rest)) []) (before ++ first :: rest ++ after)
  /-- A type before a question mark. -/
  | optional {before text after : List Char} {inner : TypeExpr} (hbefore : Blanks before)
      (hinner : WrittenAs inner text) (hafter : Blanks after) :
      WrittenAs (.optional {} inner) (before ++ text ++ '?' :: after)
  /-- A type in brackets. -/
  | array {before text after : List Char} {element : TypeExpr} (hbefore : Blanks before)
      (helement : WrittenAs element text) (hafter : Blanks after) :
      WrittenAs (.array {} element) (before ++ '[' :: (text ++ ']' :: after))

theorem isTypeName_iff {first : Char} {rest : List Char} :
    isTypeName (first :: rest) = true ↔
      isLetter first = true ∧ ∀ c ∈ rest, isLetterOrNumber c = true ∨ c = '_' := by
  simp [isTypeName]

theorem beforeLast?_eq_some_iff {last : Char} {cs inner : List Char} :
    beforeLast? last cs = some inner ↔ cs = inner ++ [last] := by
  simp only [beforeLast?, Option.ite_none_right_eq_some, Option.some.injEq,
    List.getLast?_eq_some_iff]
  constructor
  · rintro ⟨⟨init, rfl⟩, rfl⟩
    rw [List.dropLast_concat]
  · rintro rfl
    exact ⟨⟨inner, rfl⟩, List.dropLast_concat⟩

theorem betweenBrackets?_eq_some_iff {cs inner : List Char} :
    betweenBrackets? cs = some inner ↔ cs = '[' :: (inner ++ [']']) := by
  unfold betweenBrackets?
  split
  · rw [beforeLast?_eq_some_iff, List.cons_inj_right]
  · next hbracket => exact iff_of_false nofun fun h => hbracket _ h

namespace TypeExpr

/-! ## Reading follows the grammar -/

/-- Reading sees a text without the blanks around it. -/
theorem ofChars?_congr {cs cs' : List Char} (h : trim cs = trim cs') (fuel : Nat) :
    ofChars? fuel cs = ofChars? fuel cs' := by
  cases fuel with
  | zero => rfl
  | succ fuel => simp only [ofChars?, h]

theorem writtenAs_of_ofChars? {fuel : Nat} {cs : List Char} {e : TypeExpr}
    (h : ofChars? fuel cs = some e) : e.WrittenAs cs := by
  induction fuel generalizing cs e with
  | zero => cases h
  | succ fuel ih =>
    obtain ⟨before, after, hbefore, hafter, hcs⟩ := Text.exists_blanks_trim cs
    rw [hcs]
    simp only [ofChars?] at h
    generalize trim cs = core at h ⊢
    cases hlast : beforeLast? '?' core with
    | some inner =>
      rw [hlast] at h
      obtain ⟨e', he', rfl⟩ := Option.map_eq_some_iff.1 h
      rw [beforeLast?_eq_some_iff.1 hlast]
      simpa using WrittenAs.optional hbefore (ih he') hafter
    | none =>
      rw [hlast] at h
      cases hbrackets : betweenBrackets? core with
      | some inner =>
        rw [hbrackets] at h
        obtain ⟨e', he', rfl⟩ := Option.map_eq_some_iff.1 h
        rw [betweenBrackets?_eq_some_iff.1 hbrackets]
        simpa using WrittenAs.array hbefore (ih he') hafter
      | none =>
        rw [hbrackets] at h
        simp only [Option.ite_none_right_eq_some, Option.some.injEq] at h
        obtain ⟨hname, rfl⟩ := h
        cases core with
        | nil => cases hname
        | cons first rest =>
          obtain ⟨hfirst, hrest⟩ := isTypeName_iff.1 hname
          exact .named hbefore hfirst hrest hafter

/-- A character inside a name is neither a blank nor a question mark. -/
theorem isBlank_of_nameChar {c : Char} (h : isLetterOrNumber c = true ∨ c = '_') :
    isBlank c = false ∧ c ≠ '?' := by
  rcases h with h | rfl
  · refine ⟨Bool.eq_false_iff.2 fun hblank => ?_, ?_⟩
    · rw [Text.isLetterOrNumber_of_isBlank hblank] at h
      cases h
    · rintro rfl
      revert h
      decide +kernel
  · decide

theorem ofChars?_of_writtenAs {cs : List Char} {e : TypeExpr} (h : e.WrittenAs cs) {fuel : Nat}
    (hfuel : cs.length < fuel) : ofChars? fuel cs = some e := by
  induction h generalizing fuel with
  | @named before after rest first hbefore hfirst hrest hafter =>
    obtain ⟨fuel, rfl⟩ : ∃ n, fuel = n + 1 := ⟨fuel - 1, by omega⟩
    have hchars : ∀ c ∈ first :: rest, isLetterOrNumber c = true ∨ c = '_' :=
      List.forall_mem_cons.2 ⟨.inl (Text.isLetterOrNumber_of_isLetter hfirst), hrest⟩
    have hcore : trim (before ++ first :: rest ++ after) = first :: rest :=
      Text.trim_of_not_blank hbefore hafter (fun c hc => (isBlank_of_nameChar (hchars c hc)).1)
        (List.cons_ne_nil _ _)
    have hlast : beforeLast? '?' (first :: rest) = none := by
      refine Option.eq_none_iff_forall_ne_some.2 fun inner hinner => ?_
      rw [beforeLast?_eq_some_iff.1 hinner] at hchars
      exact (isBlank_of_nameChar (hchars '?' (by simp))).2 rfl
    have hbrackets : betweenBrackets? (first :: rest) = none := by
      refine Option.eq_none_iff_forall_ne_some.2 fun inner hinner => ?_
      cases (List.cons.inj (betweenBrackets?_eq_some_iff.1 hinner)).1
      revert hfirst
      decide +kernel
    simp only [ofChars?, hcore, hlast, hbrackets, isTypeName_iff.2 ⟨hfirst, hrest⟩, if_true]
  | @optional before text after inner hbefore hinner hafter ih =>
    obtain ⟨fuel, rfl⟩ : ∃ n, fuel = n + 1 := ⟨fuel - 1, by omega⟩
    have htext : text.length < fuel := by simp at hfuel; omega
    have hcore : beforeLast? '?' (trim (before ++ text ++ '?' :: after)) =
        some (text.dropWhile isBlank) := by
      rw [Text.trim_append hbefore hafter text (by decide), beforeLast?_eq_some_iff]
    simp only [ofChars?, hcore]
    rw [ofChars?_congr (Text.trim_dropWhile text), ih htext]
    rfl
  | @array before text after element hbefore helement hafter ih =>
    obtain ⟨fuel, rfl⟩ : ∃ n, fuel = n + 1 := ⟨fuel - 1, by omega⟩
    have htext : text.length < fuel := by simp at hfuel; omega
    have hcore : trim (before ++ '[' :: (text ++ ']' :: after)) = '[' :: text ++ [']'] := by
      have htrim := Text.trim_append hbefore hafter ('[' :: text)
        (show isBlank ']' = false by decide)
      simpa [show isBlank '[' = false by decide] using htrim
    have hlast : beforeLast? '?' ('[' :: text ++ [']']) = none := by
      rw [beforeLast?, List.getLast?_concat, if_neg (by decide)]
    have hbrackets : betweenBrackets? ('[' :: text ++ [']']) = some text :=
      betweenBrackets?_eq_some_iff.2 rfl
    simp only [ofChars?, hcore, hlast, hbrackets]
    rw [ih htext]
    rfl

theorem ofText?_eq_some_iff {s : String} {e : TypeExpr} :
    ofText? s = some e ↔ e.WrittenAs s.toList :=
  ⟨writtenAs_of_ofChars?, fun h =>
    ofChars?_of_writtenAs h (String.length_toList ▸ Nat.lt_succ_self _)⟩

/-- A text is read as a type just when the type is written as that text, and as no more than one
type is any text written. -/
theorem ofText?_iff_writtenAs :
    (∀ s e, ofText? s = some e ↔ e.WrittenAs s.toList) ∧
      ∀ (text : List Char) (e e' : TypeExpr), e.WrittenAs text → e'.WrittenAs text → e = e' := by
  refine ⟨fun s e => ofText?_eq_some_iff, fun text e e' he he' => ?_⟩
  have hread := ofChars?_of_writtenAs he (Nat.lt_succ_self _)
  exact Option.some.inj (hread.symm.trans (ofChars?_of_writtenAs he' (Nat.lt_succ_self _)))

end TypeExpr

end UnitAnalysis
