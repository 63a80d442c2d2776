import Mathlib.Data.List.Perm.Basic
import Mathlib.Data.List.Range

/-! # Custody of handles

Handles are numbered in the order of their creation. Each is in the custody of one holder,
who may pass it on, until it is closed.
-/

namespace Custody

variable {held held' closed : List ℕ} {n h : ℕ}

/-- The handles created so far are those held and those closed, each of them once. -/
def Accounts (held closed : List ℕ) (n : ℕ) : Prop := (held ++ closed).Perm (List.range n)

theorem accounts_nil : Accounts [] [] 0 := List.Perm.refl _

theorem Accounts.create (ha : Accounts held closed n) : Accounts (n :: held) closed (n + 1) := by
  rw [Accounts, List.range_succ]
  exact (ha.cons n).trans (List.perm_append_singleton n _).symm

theorem Accounts.close (ha : Accounts (h :: held) closed n) : Accounts held (h :: closed) n :=
  List.perm_middle.trans ha

theorem Accounts.transfer (ha : Accounts held closed n) (hp : held'.Perm held) :
    Accounts held' closed n :=
  (hp.append_right closed).trans ha

theorem Accounts.nodup (ha : Accounts held closed n) : (held ++ closed).Nodup :=
  (List.Perm.nodup_iff ha).mpr List.nodup_range

theorem Accounts.nodup_held (ha : Accounts held closed n) : held.Nodup :=
  (List.nodup_append.mp ha.nodup).1

theorem Accounts.nodup_closed (ha : Accounts held closed n) : closed.Nodup :=
  (List.nodup_append.mp ha.nodup).2.1

theorem Accounts.notMem_closed (ha : Accounts held closed n) (hh : h ∈ held) : h ∉ closed :=
  fun hc => (List.nodup_append.mp ha.nodup).2.2 h hh h hc rfl

theorem Accounts.mem_iff (ha : Accounts held closed n) : h ∈ held ∨ h ∈ closed ↔ h < n := by
  rw [← List.mem_append, List.Perm.mem_iff ha, List.mem_range]

/-- Once nobody holds a handle, all have been closed. -/
theorem Accounts.closed_perm (ha : Accounts [] closed n) : closed.Perm (List.range n) := ha

/-! ### Holders in a list -/

section Holders

variable {α : Type*} {holding : α → Option ℕ} {l : List α} {i : ℕ} {a b : α}

theorem filterMap_set (hi : l[i]? = some a) (hb : holding b = holding a) :
    (l.set i b).filterMap holding = l.filterMap holding := by
  induction l generalizing i with
  | nil => simp at hi
  | cons c l ih =>
    cases i with
    | zero =>
      obtain rfl := Option.some.inj hi
      simp [List.filterMap_cons, hb]
    | succ i => simp [List.filterMap_cons, ih hi]

theorem perm_filterMap_set (hi : l[i]? = some a) (ha : holding a = some h)
    (hb : holding b = none) :
    (l.filterMap holding).Perm (h :: (l.set i b).filterMap holding) := by
  induction l generalizing i with
  | nil => simp at hi
  | cons c l ih =>
    cases i with
    | zero =>
      obtain rfl := Option.some.inj hi
      simp [ha, hb]
    | succ i =>
      have hperm := ih hi
      simp only [List.set_cons_succ, List.filterMap_cons]
      cases holding c with
      | none => exact hperm
      | some k => exact (hperm.cons k).trans (List.Perm.swap _ _ _)

end Holders

end Custody
