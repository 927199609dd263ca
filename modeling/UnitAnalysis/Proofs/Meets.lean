/-!
# Steps and what they meet

A construction and a check are made of steps that pass on a state. A step meets a condition when,
started in a state that fulfils one condition, it ends with a value and a state that fulfil another.
-/

set_option autoImplicit false

namespace UnitAnalysis

/-- A step that starts where `P` holds ends where `Q` holds of its value and of the state. -/
structure Meets {σ α : Type} (P : σ → Prop) (x : StateM σ α) (Q : α → σ → Prop) : Prop where
  run : ∀ s, P s → Q (x.run s).1 (x.run s).2

namespace Meets

variable {σ α β : Type} {P P' : σ → Prop} {Q Q' : α → σ → Prop} {R : β → σ → Prop}

theorem pure {a : α} (h : ∀ s, P s → Q a s) : Meets P (Pure.pure a) Q :=
  ⟨h⟩

variable {x : StateM σ α}

theorem bind {f : α → StateM σ β} (hx : Meets P x Q)
    (hf : ∀ a, Meets (Q a) (f a) R) : Meets P (x >>= f) R :=
  ⟨fun s hs => (hf _).run _ (hx.run s hs)⟩

/-- A step that looks at the state first. -/
theorem look {f : σ → StateM σ α} (hf : ∀ s, P s → Meets (· = s) (f s) Q) :
    Meets P (get >>= f) Q :=
  ⟨fun s hs => (hf s hs).run s rfl⟩

theorem modify {f : σ → σ} {Q : PUnit → σ → Prop} (h : ∀ s, P s → Q ⟨⟩ (f s)) :
    Meets P (modify f) Q :=
  ⟨h⟩

theorem mono (hx : Meets P x Q) (hP : ∀ s, P' s → P s)
    (hQ : ∀ a s, Q a s → Q' a s) : Meets P' x Q' :=
  ⟨fun s hs => hQ _ _ (hx.run s (hP s hs))⟩

theorem and (hx : Meets P x Q) (hx' : Meets P' x Q') :
    Meets (fun s => P s ∧ P' s) x fun a s => Q a s ∧ Q' a s :=
  ⟨fun s hs => ⟨hx.run s hs.1, hx'.run s hs.2⟩⟩

/-- A step that starts in one state. -/
theorem from_state (hx : Meets P x Q) {s : σ} (hs : P s) : Meets (· = s) x Q :=
  hx.mono (fun _ heq => heq ▸ hs) fun _ _ h => h

theorem forM {ι : Type} {xs : List ι} {step : ι → StateM σ PUnit}
    (h : ∀ x ∈ xs, Meets P (step x) fun _ => P) : Meets P (xs.forM step) fun _ => P := by
  induction xs with
  | nil => exact pure fun _ hs => hs
  | cons x xs ih =>
    exact (h x List.mem_cons_self).bind fun _ => ih fun y hy => h y (List.mem_cons_of_mem _ hy)

end Meets

section Invariant

variable {σ α β : Type} {I : σ → Prop}

/-- A step keeps an invariant. -/
def Keeps (I : σ → Prop) (x : StateM σ α) : Prop :=
  Meets I x fun _ => I

/-- A step keeps an invariant and gives a value of some kind. -/
def Gives (I : σ → Prop) (V : α → Prop) (x : StateM σ α) : Prop :=
  Meets I x fun a s => V a ∧ I s

namespace Keeps

theorem pure (a : α) : Keeps I (Pure.pure a) :=
  Meets.pure fun _ h => h

theorem bind {R : β → σ → Prop} {x : StateM σ α} {f : α → StateM σ β} (hx : Keeps I x)
    (hf : ∀ a, Meets I (f a) R) : Meets I (x >>= f) R :=
  Meets.bind hx hf

theorem look {f : σ → StateM σ α} (hf : ∀ s, I s → Keeps I (f s)) : Keeps I (get >>= f) :=
  Meets.look fun s hs => Meets.from_state (hf s hs) hs

end Keeps

namespace Gives

variable {V : α → Prop}

theorem pure {a : α} (ha : V a) : Gives I V (Pure.pure a) :=
  Meets.pure fun _ h => ⟨ha, h⟩

theorem bind {R : β → σ → Prop} {x : StateM σ α} {f : α → StateM σ β} (hx : Gives I V x)
    (hf : ∀ a, V a → Meets I (f a) R) : Meets I (x >>= f) R :=
  Meets.bind hx fun a => ⟨fun s hs => (hf a hs.1).run s hs.2⟩

theorem look {f : σ → StateM σ α} (hf : ∀ s, I s → Gives I V (f s)) : Gives I V (get >>= f) :=
  Meets.look fun s hs => Meets.from_state (hf s hs) hs

theorem keeps {x : StateM σ α} (hx : Gives I V x) : Keeps I x :=
  Meets.mono hx (fun _ h => h) fun _ _ h => h.2

end Gives

end Invariant

end UnitAnalysis
