import Mathlib.Tactic.Tauto
import UnitAnalysis.Text.Letter
import UnitAnalysis.Ty.Basic

/-!
# Reading types back from their names

Types are compared by their names where their shapes differ, so it matters what a name tells about
a type. As long as the names in it are identifiers, it tells everything but two things: which kind
of leaf a name stands for, and whether the brackets of an optional function are those of a tuple.
`Ty.shown` is what is left. `Ty.readType` reads it off the characters of a name, and
`Ty.shown_eq_of_name_eq` says that types with one name are shown alike.
-/

set_option autoImplicit false

namespace UnitAnalysis

/-- Whether a character can stand in an identifier: letters, numbers and underscores can. -/
def Text.isIdentChar (c : Char) : Bool :=
  isLetterOrNumber c || c = '_'

/-- Whether a text is an identifier. -/
def isIdentifier (s : String) : Bool :=
  !s.toList.isEmpty && s.toList.all Text.isIdentChar

/-- The marks that stand around the names in a rendered type. -/
def typeMarks : List Char :=
  ['?', ',', '[', ']', '(', ')', '<', '>']

theorem isIdentChar_of_mem_typeMarks {c : Char} (hc : c ∈ typeMarks) :
    Text.isIdentChar c = false := by
  have hall : typeMarks.all (fun mark => !Text.isIdentChar mark) = true := by decide +kernel
  simpa using List.all_eq_true.1 hall c hc

/-- No mark stands in an identifier. -/
theorem ne_of_isIdentChar {c mark : Char} (hc : Text.isIdentChar c = true)
    (hmark : mark ∈ typeMarks) : c ≠ mark := by
  rintro rfl
  rw [isIdentChar_of_mem_typeMarks hmark] at hc
  cases hc

theorem Primitive.isIdentifier_name (p : Primitive) : isIdentifier p.name = true := by
  cases p <;> decide +kernel

namespace Ty

mutual

/-- Whether all names in a type are identifiers. -/
def isWellNamed : Ty → Bool
  | prim _ => true
  | named n => isIdentifier n
  | generic base args => isIdentifier base && allWellNamed args
  | optional inner => inner.isWellNamed
  | array element => element.isWellNamed
  | tuple elements => allWellNamed elements
  | function params ret => allWellNamed params && ret.isWellNamed
  | param n _ => isIdentifier n

/-- Whether all names in several types are identifiers. -/
def allWellNamed : List Ty → Bool
  | [] => true
  | t :: ts => t.isWellNamed && allWellNamed ts

end

mutual

/-- A type as its text shows it: leaves by their names alone, and an optional function as an
optional of a bracket with the function in it. -/
def shown : Ty → Ty
  | prim p => named p.name
  | named n => named n
  | generic base args => generic base (shownAll args)
  | optional inner => optional (if inner.isFunction then tuple [inner.shown] else inner.shown)
  | array element => array element.shown
  | tuple elements => tuple (shownAll elements)
  | function params ret => function (shownAll params) ret.shown
  | param n _ => named n

/-- Several types as their texts show them. -/
def shownAll : List Ty → List Ty
  | [] => []
  | t :: ts => t.shown :: shownAll ts

end

/-! ## A reader -/

/-- Reads the question marks after a type. -/
def readMarks (t : Ty) : List Char → Ty × List Char
  | '?' :: cs => readMarks (optional t) cs
  | cs => (t, cs)

/-- Leaves out what stands between two types of a list. -/
def dropSeparator : List Char → List Char
  | ',' :: ' ' :: cs => cs
  | cs => cs

/-- Goes on after a name: with arguments in angle brackets, or with question marks only. -/
def readArguments (read : List Char → Option (List Ty × List Char)) (name : String) :
    List Char → Option (Ty × List Char)
  | '<' :: cs => (read cs).map fun (args, cs) => readMarks (generic name args) cs
  | cs => some (readMarks (named name) cs)

/-- Goes on after types in round brackets: with an arrow and a result, or with question marks only.
-/
def readResult (read : List Char → Option (Ty × List Char)) (types : List Ty) :
    List Char → Option (Ty × List Char)
  | ' ' :: '-' :: '>' :: ' ' :: cs => (read cs).map fun (ret, cs) => (function types ret, cs)
  | cs => some (readMarks (tuple types) cs)

mutual

/-- Reads a type from the start of a text, and gives what is left of the text. It does not look at
the closing bracket of an array. -/
def readType : (fuel : Nat) → List Char → Option (Ty × List Char)
  | 0, _ => none
  | fuel + 1, '[' :: cs =>
    (readType fuel cs).map fun (element, cs) => readMarks (array element) cs.tail
  | fuel + 1, '(' :: cs =>
    (readTypes fuel ')' cs).bind fun (types, cs) => readResult (readType fuel) types cs
  | fuel + 1, cs =>
    readArguments (readTypes fuel '>') (String.ofList (cs.takeWhile Text.isIdentChar))
      (cs.dropWhile Text.isIdentChar)

/-- Reads types up to a bracket that closes their list. -/
def readTypes : (fuel : Nat) → (close : Char) → List Char → Option (List Ty × List Char)
  | 0, _, _ => none
  | fuel + 1, close, cs =>
    if cs.head? = some close then some ([], cs.tail)
    else
      (readType fuel cs).bind fun (t, cs) =>
        (readTypes fuel close (dropSeparator cs)).map fun (ts, cs) => (t :: ts, cs)

end

/-! ## What the reader makes of names -/

/-- A rest does not go on with a name: nothing that belongs to an identifier stands at its start,
and neither arguments nor the arrow of a function do. -/
def Stops (rest : List Char) : Prop :=
  ∀ c, rest.head? = some c → Text.isIdentChar c = false ∧ c ≠ '<' ∧ c ≠ ' '

theorem stops_nil : Stops [] := by
  simp [Stops]

theorem stops_cons {c : Char} (rest : List Char)
    (h : c = '?' ∨ c = ',' ∨ c = ']' ∨ c = ')' ∨ c = '>') : Stops (c :: rest) := by
  rintro d hd
  cases hd
  rcases h with rfl | rfl | rfl | rfl | rfl <;>
    exact ⟨isIdentChar_of_mem_typeMarks (by decide), by decide, by decide⟩

variable {rest : List Char}

theorem readMarks_of_head?_ne (t : Ty) (h : rest.head? ≠ some '?') :
    readMarks t rest = (t, rest) := by
  cases rest with
  | nil => rfl
  | cons c cs =>
    have hc : c ≠ '?' := by simpa using h
    unfold readMarks
    split
    · next heq => exact absurd (List.cons.inj heq).1 hc
    · rfl

/-- A text that starts with an identifier is read as a name. -/
theorem readType_ident (fuel : Nat) {name : String} (h : isIdentifier name = true)
    (hrest : ∀ c, rest.head? = some c → Text.isIdentChar c = false) :
    readType (fuel + 1) (name.toList ++ rest) = readArguments (readTypes fuel '>') name rest := by
  simp only [isIdentifier, Bool.and_eq_true, Bool.not_eq_true', List.all_eq_true] at h
  obtain ⟨hne, hall⟩ := h
  have htake : (name.toList ++ rest).takeWhile Text.isIdentChar = name.toList := by
    rw [List.takeWhile_append_of_pos hall]
    cases rest with
    | nil => exact List.append_nil _
    | cons c cs => rw [List.takeWhile_cons_of_neg (by simp [hrest c rfl]), List.append_nil]
  have hdrop : (name.toList ++ rest).dropWhile Text.isIdentChar = rest := by
    rw [List.dropWhile_append_of_pos hall]
    cases rest with
    | nil => rfl
    | cons c cs => exact List.dropWhile_cons_of_neg (by simp [hrest c rfl])
  cases hname : name.toList with
  | nil => simp [hname] at hne
  | cons c cs =>
    have hc : Text.isIdentChar c = true := hall c (by rw [hname]; exact List.mem_cons_self)
    have hsquare : c ≠ '[' := ne_of_isIdentChar hc (by decide)
    have hround : c ≠ '(' := ne_of_isIdentChar hc (by decide)
    rw [hname, List.cons_append] at htake hdrop
    rw [List.cons_append, readType, htake, hdrop, ← hname, String.ofList_toList]
    · exact fun _ heq => hsquare (List.cons.inj heq).1
    · exact fun _ heq => hround (List.cons.inj heq).1

/-- After a name that does not go on, nothing but question marks is read. -/
theorem readArguments_of_stops (read : List Char → Option (List Ty × List Char)) (name : String)
    (h : Stops rest) :
    readArguments read name rest = some (readMarks (named name) rest) := by
  unfold readArguments
  split
  · next cs => exact absurd rfl (h '<' rfl).2.1
  · rfl

theorem readResult_of_stops (read : List Char → Option (Ty × List Char)) (types : List Ty)
    (h : Stops rest) :
    readResult read types rest = some (readMarks (tuple types) rest) := by
  unfold readResult
  split
  · next cs => exact absurd rfl (h ' ' rfl).2.2
  · rfl

theorem exists_head_of_isIdentifier {s : String} (h : isIdentifier s = true) :
    ∃ c cs, s.toList = c :: cs ∧ c ≠ ')' ∧ c ≠ '>' := by
  simp only [isIdentifier, Bool.and_eq_true, Bool.not_eq_true', List.all_eq_true] at h
  cases hname : s.toList with
  | nil => simp [hname] at h
  | cons c cs =>
    have hc : Text.isIdentChar c = true := h.2 c (by rw [hname]; exact List.mem_cons_self)
    exact ⟨c, cs, rfl, ne_of_isIdentChar hc (by decide), ne_of_isIdentChar hc (by decide)⟩

/-- The first character of a name closes no list. -/
theorem exists_head_name : ∀ {t : Ty}, t.isWellNamed = true →
    ∃ c cs, t.name.toList = c :: cs ∧ c ≠ ')' ∧ c ≠ '>'
  | prim p, _ => by simpa only [name] using exists_head_of_isIdentifier p.isIdentifier_name
  | named n, h | param n _, h => by simpa only [name] using exists_head_of_isIdentifier h
  | generic base args, h => by
    rw [isWellNamed, Bool.and_eq_true] at h
    obtain ⟨c, cs, hbase, hc⟩ := exists_head_of_isIdentifier h.1
    refine ⟨c, cs ++ ("<" ++ String.intercalate ", " (names args) ++ ">").toList, ?_, hc⟩
    rw [name, String.append_assoc, String.append_assoc, String.toList_append, hbase]
    rfl
  | optional inner, h => by
    rw [name]
    split
    · exact ⟨'(', (inner.name ++ ")?").toList, by simp, by decide, by decide⟩
    · obtain ⟨c, cs, hinner, hc⟩ := exists_head_name (t := inner) h
      exact ⟨c, cs ++ ['?'], by simp [hinner], hc⟩
  | array element, _ => ⟨'[', (element.name ++ "]").toList, by simp [name], by decide, by decide⟩
  | tuple elements, _ =>
    ⟨'(', (String.intercalate ", " (names elements) ++ ")").toList, by simp [name], by decide,
      by decide⟩
  | function params ret, _ =>
    ⟨'(', (String.intercalate ", " (names params) ++ ") -> " ++ ret.name).toList, by simp [name],
      by decide, by decide⟩

/-- The characters of several types in a list. -/
def listText (ts : List Ty) : List Char :=
  (String.intercalate ", " (names ts)).toList

/-- After the first type of a list comes a separator and the rest of the list, or the bracket that
closes it. -/
theorem exists_listText_cons (t : Ty) (ts : List Ty) {close : Char}
    (hclose : close = ')' ∨ close = '>')
    (rest : List Char) :
    ∃ after, listText (t :: ts) ++ close :: rest = t.name.toList ++ after ∧ Stops after ∧
      after.head? ≠ some '?' ∧ dropSeparator after = listText ts ++ close :: rest := by
  cases ts with
  | nil =>
    refine ⟨close :: rest, by simp [listText, names], stops_cons rest (by tauto), ?_, ?_⟩
    · rcases hclose with rfl | rfl <;> simp
    · rcases hclose with rfl | rfl <;> rfl
  | cons u us =>
    refine ⟨',' :: ' ' :: (listText (u :: us) ++ close :: rest), ?_,
      stops_cons _ (.inr (.inl rfl)), by simp, rfl⟩
    simp [listText, names, String.intercalate_cons_cons]

/-! ## Types are read back -/

/-- A type is read from its name, with every fuel from some point on. Question marks that follow are
read with it, which is why they must not follow a function. -/
def ReadsBack (t : Ty) : Prop :=
  ∃ enough, ∀ fuel, enough ≤ fuel → ∀ rest, Stops rest →
    (t.isFunction = true → rest.head? ≠ some '?') →
    readType fuel (t.name.toList ++ rest) = some (readMarks t.shown rest)

/-- Types are read from the text of their list, with every fuel from some point on. -/
def AllReadBack (ts : List Ty) : Prop :=
  ∃ enough, ∀ fuel, enough ≤ fuel → ∀ close, close = ')' ∨ close = '>' → ∀ rest,
    readTypes fuel close (listText ts ++ close :: rest) = some (shownAll ts, rest)

/-- A leaf is read as its name. -/
theorem readsBack_leaf {t : Ty} (hident : isIdentifier t.name = true)
    (hshown : t.shown = named t.name) :
    t.ReadsBack := by
  refine ⟨1, fun fuel hfuel rest hrest _ => ?_⟩
  obtain ⟨n, rfl⟩ : ∃ n, fuel = n + 1 := ⟨fuel - 1, by omega⟩
  rw [readType_ident n hident fun c hc => (hrest c hc).1, readArguments_of_stops _ _ hrest, hshown]

theorem allReadBack_nil : AllReadBack [] := by
  refine ⟨1, fun fuel hfuel close _ rest => ?_⟩
  obtain ⟨n, rfl⟩ : ∃ n, fuel = n + 1 := ⟨fuel - 1, by omega⟩
  simp [readTypes, listText, names, shownAll]

theorem allReadBack_cons {t : Ty} {ts : List Ty} (h : t.isWellNamed = true) (ht : t.ReadsBack)
    (hts : AllReadBack ts) : AllReadBack (t :: ts) := by
  obtain ⟨enough, hfirst⟩ := ht
  obtain ⟨enough', hrest⟩ := hts
  refine ⟨max enough enough' + 1, fun fuel hfuel close hclose rest => ?_⟩
  obtain ⟨n, rfl⟩ : ∃ n, fuel = n + 1 := ⟨fuel - 1, by omega⟩
  obtain ⟨after, htext, hstops, hmark, hdrop⟩ := exists_listText_cons t ts hclose rest
  obtain ⟨c, cs, hname, hround, hangle⟩ := exists_head_name h
  have hopen : (t.name.toList ++ after).head? ≠ some close := by
    rw [hname]
    rcases hclose with rfl | rfl <;> simpa
  rw [htext, readTypes, if_neg hopen, hfirst n (by omega) after hstops fun _ => hmark,
    readMarks_of_head?_ne _ hmark]
  change (readTypes n close (dropSeparator after)).map _ = _
  rw [hdrop, hrest n (by omega) close hclose rest]
  rfl

/-- What stands in round brackets is read as a tuple, unless an arrow follows. -/
theorem readType_round {ts : List Ty} (hts : AllReadBack ts) :
    ∃ enough, ∀ fuel, enough ≤ fuel → ∀ rest, Stops rest →
      readType fuel ('(' :: (listText ts ++ ')' :: rest)) =
        some (readMarks (tuple (shownAll ts)) rest) := by
  obtain ⟨enough, hread⟩ := hts
  refine ⟨enough + 1, fun fuel hfuel rest hrest => ?_⟩
  obtain ⟨n, rfl⟩ : ∃ n, fuel = n + 1 := ⟨fuel - 1, by omega⟩
  rw [readType, hread n (by omega) ')' (.inl rfl) rest]
  exact readResult_of_stops _ _ hrest

theorem readsBack_generic {base : String} {args : List Ty} (h : isIdentifier base = true)
    (hargs : AllReadBack args) : (generic base args).ReadsBack := by
  obtain ⟨enough, hread⟩ := hargs
  refine ⟨enough + 1, fun fuel hfuel rest _ _ => ?_⟩
  obtain ⟨n, rfl⟩ : ∃ n, fuel = n + 1 := ⟨fuel - 1, by omega⟩
  have htext : (generic base args).name.toList ++ rest =
      base.toList ++ '<' :: (listText args ++ '>' :: rest) := by
    simp [name, listText]
  have hmark : Text.isIdentChar '<' = false := isIdentChar_of_mem_typeMarks (by decide)
  rw [htext, readType_ident n h (by rintro c ⟨⟩; exact hmark), readArguments,
    hread n (by omega) '>' (.inr rfl) rest]
  rfl

theorem readsBack_optional {inner : Ty} (h : inner.isWellNamed = true) (hinner : inner.ReadsBack) :
    (optional inner).ReadsBack := by
  by_cases hf : inner.isFunction = true
  · -- The brackets around the function are read as those of a tuple.
    obtain ⟨enough, hread⟩ := readType_round (allReadBack_cons h hinner allReadBack_nil)
    refine ⟨enough, fun fuel hfuel rest _ _ => ?_⟩
    have htext : (optional inner).name.toList ++ rest =
        '(' :: (listText [inner] ++ ')' :: '?' :: rest) := by
      simp [name, hf, listText, names]
    rw [htext, hread fuel hfuel _ (stops_cons rest (.inl rfl)), shown, if_pos hf]
    rfl
  · obtain ⟨enough, hread⟩ := hinner
    refine ⟨enough, fun fuel hfuel rest _ _ => ?_⟩
    have htext : (optional inner).name.toList ++ rest = inner.name.toList ++ '?' :: rest := by
      simp [name, hf]
    rw [htext, hread fuel hfuel _ (stops_cons rest (.inl rfl)) (absurd · hf), shown, if_neg hf]
    rfl

theorem readsBack_array {element : Ty} (helement : element.ReadsBack) :
    (array element).ReadsBack := by
  obtain ⟨enough, hread⟩ := helement
  refine ⟨enough + 1, fun fuel hfuel rest _ _ => ?_⟩
  obtain ⟨n, rfl⟩ : ∃ n, fuel = n + 1 := ⟨fuel - 1, by omega⟩
  have htext : (array element).name.toList ++ rest =
      '[' :: (element.name.toList ++ ']' :: rest) := by
    simp [name]
  rw [htext, readType, hread n (by omega) _ (stops_cons rest (by tauto)) (by simp),
    readMarks_of_head?_ne _ (by simp)]
  rfl

theorem readsBack_tuple {elements : List Ty} (helements : AllReadBack elements) :
    (tuple elements).ReadsBack := by
  obtain ⟨enough, hread⟩ := readType_round helements
  refine ⟨enough, fun fuel hfuel rest hrest _ => ?_⟩
  have htext : (tuple elements).name.toList ++ rest =
      '(' :: (listText elements ++ ')' :: rest) := by
    simp [name, listText]
  rw [htext, hread fuel hfuel rest hrest, shown]

theorem readsBack_function {params : List Ty} {ret : Ty} (hparams : AllReadBack params)
    (hret : ret.ReadsBack) : (function params ret).ReadsBack := by
  obtain ⟨enough, hread⟩ := hparams
  obtain ⟨enough', hread'⟩ := hret
  refine ⟨max enough enough' + 1, fun fuel hfuel rest hrest hmark => ?_⟩
  obtain ⟨n, rfl⟩ : ∃ n, fuel = n + 1 := ⟨fuel - 1, by omega⟩
  have htext : (function params ret).name.toList ++ rest =
      '(' :: (listText params ++ ')' :: (" -> ".toList ++ (ret.name.toList ++ rest))) := by
    simp [name, listText]
  have hnone : rest.head? ≠ some '?' := hmark rfl
  rw [htext, readType, hread n (by omega) ')' (.inl rfl)]
  change (readType n (ret.name.toList ++ rest)).map _ = _
  rw [hread' n (by omega) rest hrest fun _ => hnone, readMarks_of_head?_ne _ hnone,
    readMarks_of_head?_ne _ hnone]
  rfl

mutual

/-- Every type is read back from its name. -/
theorem readsBack : ∀ t : Ty, t.isWellNamed = true → t.ReadsBack
  | prim p, _ => readsBack_leaf p.isIdentifier_name rfl
  | named _, h => readsBack_leaf h rfl
  | param _ _, h => readsBack_leaf h rfl
  | generic _ args, h =>
    have h := Bool.and_eq_true_iff.1 h
    readsBack_generic h.1 (allReadBack args h.2)
  | optional inner, h => readsBack_optional h (readsBack inner h)
  | array element, h => readsBack_array (readsBack element h)
  | tuple elements, h => readsBack_tuple (allReadBack elements h)
  | function params ret, h =>
    have h := Bool.and_eq_true_iff.1 h
    readsBack_function (allReadBack params h.1) (readsBack ret h.2)

theorem allReadBack : ∀ ts : List Ty, allWellNamed ts = true → AllReadBack ts
  | [], _ => allReadBack_nil
  | t :: ts, h =>
    have h := Bool.and_eq_true_iff.1 h
    allReadBack_cons h.1 (readsBack t h.1) (allReadBack ts h.2)

end

/-- Types with one name are shown alike. -/
theorem shown_eq_of_name_eq {a b : Ty} (ha : a.isWellNamed = true) (hb : b.isWellNamed = true)
    (h : a.name = b.name) : a.shown = b.shown := by
  obtain ⟨enough, hread⟩ := readsBack a ha
  obtain ⟨enough', hread'⟩ := readsBack b hb
  have hfirst := hread (max enough enough') (by omega) [] stops_nil (by simp)
  have hsecond := hread' (max enough enough') (by omega) [] stops_nil (by simp)
  rw [h, hsecond] at hfirst
  exact (congrArg Prod.fst (Option.some.inj hfirst)).symm

end Ty

end UnitAnalysis
