import MessagingIdentity.Json.Basic

namespace MessagingIdentity.Json.Members

theorem get?_cons (name other : String) (value : Json) (m : Members) :
    get? other ((name, value) :: m) = if other = name then some value else m.get? other := by
  rw [get?, get?, List.lookup_cons]
  by_cases h : other = name
  · rw [if_pos h, beq_iff_eq.mpr h]
  · rw [if_neg h, beq_false_of_ne h]

/-- One member changes, whether the names are in order or not. -/
theorem get?_insert (name other : String) (value : Json) (m : Members) :
    (m.insert name value).get? other = if other = name then some value else m.get? other := by
  induction m with
  | nil => exact get?_cons name other value []
  | cons entry m ih =>
    obtain ⟨k, v⟩ := entry
    rw [insert]
    split
    next hname =>
      subst hname
      rw [get?_cons, get?_cons]
      split <;> rfl
    next hname =>
      split
      · rw [get?_cons]
      · rw [get?_cons, get?_cons, ih]
        by_cases h : other = k
        · have hne : other ≠ name := fun hother ↦ hname (hother.symm.trans h)
          rw [if_pos h, if_neg hne, if_pos h]
        · rw [if_neg h, if_neg h]

theorem text?_insert_self (name s : String) (m : Members) :
    (m.insert name (.text s)).text? name = some s := by
  rw [text?, get?_insert, if_pos rfl]
  rfl

end MessagingIdentity.Json.Members
