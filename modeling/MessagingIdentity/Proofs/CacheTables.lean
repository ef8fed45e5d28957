import Mathlib.Data.List.Nodup
import Mathlib.Data.List.Perm.Basic
import Mathlib.Data.Set.Card
import MessagingIdentity.Cache

namespace MessagingIdentity

/-- A walk through a table, which comes to each entry once. -/
structure Walk (κ ν : Type) where
  order : Order κ ν
  perm : ∀ entries, (order entries).Perm entries

section Lookup

variable {κ ν : Type} [BEq κ] [LawfulBEq κ] {key : κ} {value : ν} {l : List (κ × ν)}

theorem mem_of_lookup (h : l.lookup key = some value) : (key, value) ∈ l := by
  obtain ⟨before, behind, rfl, -⟩ := List.lookup_eq_some_iff.mp h
  exact List.mem_append_right _ List.mem_cons_self

theorem lookup_eq_some_iff_mem (h : (l.map Prod.fst).Nodup) :
    l.lookup key = some value ↔ (key, value) ∈ l := by
  refine ⟨mem_of_lookup, fun hmem ↦ ?_⟩
  obtain ⟨before, behind, rfl⟩ := List.append_of_mem hmem
  rw [List.map_append, List.map_cons] at h
  refine List.lookup_eq_some_iff.mpr ⟨before, behind, rfl, fun e he ↦ ?_⟩
  have hbefore := (List.nodup_append.mp h).2.2 e.1 (List.mem_map_of_mem he) key List.mem_cons_self
  exact bne_iff_ne.mpr hbefore.symm

theorem mem_keys_iff_lookup : key ∈ l.map Prod.fst ↔ (l.lookup key).isSome = true := by
  constructor
  · intro h
    obtain ⟨e, he, rfl⟩ := List.mem_map.mp h
    cases hl : l.lookup e.1 with
    | none => exact absurd rfl (bne_iff_ne.mp (List.lookup_eq_none_iff.mp hl e he))
    | some v => rfl
  · intro h
    obtain ⟨v, hv⟩ := Option.isSome_iff_exists.mp h
    exact List.mem_map_of_mem (mem_of_lookup hv)

variable [DecidableEq κ]

theorem lookup_cons_ite (j : κ) (v : ν) (l : List (κ × ν)) (k : κ) :
    ((j, v) :: l).lookup k = if k = j then some v else l.lookup k := by
  rw [List.lookup_cons]
  by_cases hk : k = j
  · rw [if_pos hk, beq_iff_eq.mpr hk]
  · rw [if_neg hk, beq_eq_false_iff_ne.mpr hk]

theorem lookup_assign (key : κ) (value : ν) (l : List (κ × ν)) (k : κ) :
    (assign key value l).lookup k = if k = key then some value else l.lookup k := by
  induction l with
  | nil => exact lookup_cons_ite key value [] k
  | cons x l ih =>
    obtain ⟨j, v⟩ := x
    rw [assign, lookup_cons_ite]
    split
    next hj =>
      rw [lookup_cons_ite, ← hj]
      split <;> rfl
    next hj =>
      rw [lookup_cons_ite, ih]
      by_cases hk : k = j
      · subst hk
        rw [if_pos rfl, if_neg (Ne.symm hj), if_pos rfl]
      · rw [if_neg hk, if_neg hk]

end Lookup

section Assign

variable {κ ν : Type} [DecidableEq κ] {key : κ} {value : ν} {l : List (κ × ν)}

theorem mem_assign {e : κ × ν} (h : e ∈ assign key value l) : e = (key, value) ∨ e ∈ l := by
  induction l with
  | nil => exact .inl (List.mem_singleton.mp h)
  | cons x l ih =>
    obtain ⟨k, v⟩ := x
    rw [assign] at h
    split at h
    · exact (List.mem_cons.mp h).imp_right (List.mem_cons_of_mem _)
    · rcases List.mem_cons.mp h with rfl | h
      · exact .inr List.mem_cons_self
      · exact (ih h).imp_right (List.mem_cons_of_mem _)

theorem assign_of_lookup (h : l.lookup key = some value) : assign key value l = l := by
  induction l with
  | nil => cases h
  | cons x l ih =>
    obtain ⟨k, v⟩ := x
    rw [lookup_cons_ite] at h
    rw [assign]
    split at h
    next hk =>
      obtain rfl := Option.some.inj h
      rw [if_pos hk, hk]
    next hk => rw [if_neg hk, ih h]

theorem length_assign_le (key : κ) (value : ν) (l : List (κ × ν)) :
    (assign key value l).length ≤ l.length + 1 := by
  induction l with
  | nil => exact le_rfl
  | cons x l ih =>
    obtain ⟨k, v⟩ := x
    rw [assign]
    split
    · exact Nat.le_succ _
    · exact Nat.succ_le_succ ih

theorem nodup_keys_assign (h : (l.map Prod.fst).Nodup) :
    ((assign key value l).map Prod.fst).Nodup := by
  induction l with
  | nil => exact List.nodup_singleton key
  | cons x l ih =>
    obtain ⟨k, v⟩ := x
    obtain ⟨hk, hl⟩ := List.nodup_cons.mp h
    rw [assign]
    split
    next heq =>
      subst heq
      exact h
    next hne =>
      refine List.nodup_cons.mpr ⟨fun hmem ↦ ?_, ih hl⟩
      obtain ⟨e, he, hek⟩ := List.mem_map.mp hmem
      rcases mem_assign he with rfl | he
      · exact hne hek
      · exact hk (hek ▸ List.mem_map_of_mem he)

end Assign

theorem everySecond_sublist {α : Type} (l : List α) : (everySecond l).Sublist l := by
  induction l using everySecond.induct with
  | case1 a b rest ih => exact (ih.cons_cons b).cons a
  | case2 l hl =>
    rw [everySecond.eq_2 l hl]
    exact List.nil_sublist l

theorem length_everySecond {α : Type} (l : List α) : (everySecond l).length = l.length / 2 := by
  induction l using everySecond.induct with
  | case1 a b rest ih =>
    simp only [everySecond, List.length_cons, ih]
    omega
  | case2 l hl =>
    have hshort : l.length < 2 := by
      rcases l with _ | ⟨a, _ | ⟨b, rest⟩⟩
      · exact Nat.zero_lt_two
      · exact Nat.one_lt_two
      · exact absurd rfl (hl a b rest)
    rw [everySecond.eq_2 l hl, Nat.div_eq_of_lt hshort]
    rfl

namespace Cache

variable {κ ν : Type}

theorem mem_of_mem_sweep (walk : Walk κ ν) {c : Cache κ ν} {e : κ × ν}
    (h : e ∈ (c.sweep walk.order).entries) : e ∈ c.entries :=
  (walk.perm c.entries).mem_iff.mp ((everySecond_sublist _).subset h)

theorem size_sweep (walk : Walk κ ν) (c : Cache κ ν) : (c.sweep walk.order).size = c.size / 2 := by
  rw [size, sweep, length_everySecond, (walk.perm c.entries).length_eq]
  rfl

/-- No key has two entries. -/
def Tidy (c : Cache κ ν) : Prop := (c.entries.map Prod.fst).Nodup

theorem empty_tidy : (empty : Cache κ ν).Tidy := List.nodup_nil

theorem Tidy.sweep {c : Cache κ ν} (h : c.Tidy) (walk : Walk κ ν) : (c.sweep walk.order).Tidy := by
  have hwalk : ((walk.order c.entries).map Prod.fst).Nodup :=
    ((walk.perm c.entries).map Prod.fst).nodup_iff.mpr h
  exact hwalk.sublist ((everySecond_sublist _).map Prod.fst)

variable [DecidableEq κ] {c : Cache κ ν}

theorem Tidy.put (h : c.Tidy) (key : κ) (value : ν) : (c.put key value).Tidy := nodup_keys_assign h

theorem get?_put (c : Cache κ ν) (key : κ) (value : ν) (k : κ) :
    (c.put key value).get? k = if k = key then some value else c.get? k :=
  lookup_assign key value c.entries k

theorem Tidy.get?_eq_some_iff (h : c.Tidy) {key : κ} {value : ν} :
    c.get? key = some value ↔ (key, value) ∈ c.entries := lookup_eq_some_iff_mem h

theorem Tidy.get?_of_get?_sweep (h : c.Tidy) (walk : Walk κ ν) {key : κ} {value : ν}
    (hget : (c.sweep walk.order).get? key = some value) : c.get? key = some value :=
  h.get?_eq_some_iff.mpr (mem_of_mem_sweep walk ((h.sweep walk).get?_eq_some_iff.mp hget))

theorem Tidy.size_eq_ncard (h : c.Tidy) : c.size = {key | (c.get? key).isSome = true}.ncard := by
  have hkeys : {key | (c.get? key).isSome = true} = ↑(c.entries.map Prod.fst).toFinset := by
    ext key
    rw [Set.mem_ofPred_eq, List.coe_toFinset, Set.mem_ofPred_eq, mem_keys_iff_lookup]
    rfl
  rw [hkeys, Set.ncard_coe_finset, List.toFinset_card_of_nodup h, List.length_map]
  rfl

end Cache

end MessagingIdentity
