/-!
A stored value that knows whether setting it changes anything. A value equal to the stored one is
dropped, so that the stored one stays.
-/

namespace DashboardFilters

structure Property (α : Type) where
  value : α

namespace Property

variable {α : Type} [BEq α]

def changes (p : Property α) (value : α) : Bool :=
  !(p.value == value)

def set (p : Property α) (value : α) : Property α :=
  if p.changes value then ⟨value⟩ else p

theorem set_value [LawfulBEq α] (p : Property α) (value : α) : (p.set value).value = value := by
  by_cases h : p.value = value <;> simp [set, changes, h]

end Property

end DashboardFilters
