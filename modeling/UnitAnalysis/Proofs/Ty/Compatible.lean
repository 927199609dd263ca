import UnitAnalysis.Ty.Basic

/-!
# Types that fit together

Every type fits itself and `Any`, and what fits a type is accepted by it and by its optionals.
-/

set_option autoImplicit false

namespace UnitAnalysis

namespace Ty

@[simp] theorem any_compatible (t : Ty) : any.compatible t = true := by
  simp [compatible]

@[simp] theorem compatible_any (t : Ty) : t.compatible any = true := by
  cases t with
  | prim p => cases p <;> simp [compatible]
  | _ => simp [compatible]

mutual

/-- A type fits itself. -/
theorem compatible_refl : ∀ t : Ty, t.compatible t = true
  | prim p => by cases p <;> simp [compatible]
  | named n => by simp [compatible]
  | generic base args => by simp [compatible, compatibleAll_refl args]
  | optional inner => by simp [compatible, compatible_refl inner]
  | array element => by simp [compatible, compatible_refl element]
  | tuple elements => by simp [compatible, compatibleAll_refl elements]
  | function params ret => by
    simp [compatible, compatibleAll_refl params, compatible_refl ret]
  | param n bounds => by simp [compatible]

/-- Types fit themselves. -/
theorem compatibleAll_refl : ∀ ts : List Ty, compatibleAll ts ts = true
  | [] => by simp [compatibleAll]
  | t :: ts => by simp [compatibleAll, compatible_refl t, compatibleAll_refl ts]

end

/-- What fits is accepted. -/
theorem accepts_of_compatible {t actual : Ty} (h : t.compatible actual = true) :
    t.accepts actual = true := by
  cases t with
  | optional inner => simp [accepts, h]
  | _ => simpa [accepts] using h

end Ty

end UnitAnalysis
