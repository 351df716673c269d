/-
# Things that wait

Items, writes and things in several places that wait to be handed out or carried out, and what
their order is in the end.
-/

import Mathlib.Data.List.Infix
import Mathlib.Data.List.Sort

/-! ## Queues that may lose

Items are accepted, wait, and are handed out from the front. What waits may be lost at any
time, but nothing overtakes and nothing is handed out twice: what has been handed out and what
still waits are, in this order, a part of what was accepted.
-/

namespace Fluxora.Lib.LossyQueue

universe u

variable {α : Type u}

def InOrder (accepted handed waiting : List α) : Prop := (handed ++ waiting).Sublist accepted

variable {accepted handed waiting lost : List α}

theorem InOrder.nil : InOrder ([] : List α) [] [] := List.Sublist.refl _

theorem InOrder.accept (h : InOrder accepted handed waiting) (x : α) :
    InOrder (accepted ++ [x]) handed (waiting ++ [x]) := by
  rw [InOrder, ← List.append_assoc]
  exact List.Sublist.append_right h [x]

theorem InOrder.handAll (h : InOrder accepted handed waiting) {out left : List α}
    (hleft : (out ++ left).Sublist waiting) : InOrder accepted (handed ++ out) left := by
  rw [InOrder, List.append_assoc]
  exact (hleft.append_left handed).trans h

theorem InOrder.lose (h : InOrder accepted handed waiting) (hlost : lost.Sublist waiting) :
    InOrder accepted handed lost :=
  (hlost.append_left handed).trans h

theorem InOrder.handed_sublist (h : InOrder accepted handed waiting) : handed.Sublist accepted :=
  (List.sublist_append_left handed waiting).trans h

end Fluxora.Lib.LossyQueue

/-! ## Writes that are carried out later

Writes to the rows of a table wait to be carried out. What a row will be is what the writes make
of it in their order. A write may be carried out ahead of earlier ones as long as none of those
changes a row that it changes.
-/

namespace Fluxora.Lib.PendingWrites

universe u v w

variable {ω : Type u} {κ : Type v} {ρ : Type w} (effect : ω → κ → Option ρ → Option ρ)

/-- What becomes of a row. -/
def settle (writes : List ω) (k : κ) (row : Option ρ) : Option ρ :=
  writes.foldl (fun row write => effect write k row) row

/-- The write leaves the row as it is. -/
def Leaves (write : ω) (k : κ) : Prop := ∀ row, effect write k row = row

/-- Of two writes at most one changes any row. -/
def Apart (write other : ω) : Prop := ∀ k, Leaves effect write k ∨ Leaves effect other k

variable {effect}

theorem settle_append (front back : List ω) (k : κ) (row : Option ρ) :
    settle effect (front ++ back) k row = settle effect back k (settle effect front k row) :=
  List.foldl_append

theorem settle_of_leaves {writes : List ω} {k : κ}
    (h : ∀ write ∈ writes, Leaves effect write k) (row : Option ρ) :
    settle effect writes k row = row := by
  induction writes generalizing row with
  | nil => rfl
  | cons _ _ ih =>
    rw [List.forall_mem_cons] at h
    rw [settle, List.foldl_cons, h.1]
    exact ih h.2 row

theorem settle_eraseIdx {writes : List ω} {i : ℕ} {write : ω} (hget : writes[i]? = some write)
    (hapart : ∀ earlier ∈ writes.take i, Apart effect earlier write) (k : κ) (row : Option ρ) :
    settle effect (writes.eraseIdx i) k (effect write k row) = settle effect writes k row := by
  obtain ⟨hlt, rfl⟩ := List.getElem?_eq_some_iff.mp hget
  have hsplit : writes = writes.take i ++ writes[i] :: writes.drop (i + 1) := by
    rw [List.getElem_cons_drop, List.take_append_drop]
  have hwhole : settle effect writes k row = settle effect (writes.drop (i + 1)) k
      (effect writes[i] k (settle effect (writes.take i) k row)) := by
    conv_lhs => rw [hsplit, settle_append]
    rfl
  rw [hwhole, List.eraseIdx_eq_take_drop_succ, settle_append]
  refine congrArg (settle effect (writes.drop (i + 1)) k) ?_
  by_cases hleaves : Leaves effect writes[i] k
  · rw [hleaves, hleaves]
  · have hearlier : ∀ earlier ∈ writes.take i, Leaves effect earlier k :=
      fun earlier hmem => (hapart earlier hmem k).resolve_right hleaves
    rw [settle_of_leaves hearlier, settle_of_leaves hearlier]

end Fluxora.Lib.PendingWrites

/-! ## Handing out in turn

Things are handed out one after the other while others wait, in several places and in no
order. What was handed out is in order as long as nothing is handed out before an older thing
that still waits.
-/

namespace Fluxora.Lib.Turns

universe u

variable {α : Type u} (r : α → α → Prop)

/-- What was handed out is in order, and before all that waits. -/
structure InTurn (handed : List α) (waits : α → Prop) : Prop where
  ordered : handed.Pairwise r
  ahead : ∀ a ∈ handed, ∀ b, waits b → r a b

variable {r} {handed out : List α} {waits waits' : α → Prop}

theorem InTurn.nil : InTurn r [] waits where
  ordered := List.Pairwise.nil
  ahead _ hmem := absurd hmem List.not_mem_nil

theorem InTurn.change (h : InTurn r handed waits)
    (hnew : ∀ b, waits' b → waits b ∨ ∀ a ∈ handed, r a b) : InTurn r handed waits' where
  ordered := h.ordered
  ahead a ha b hb := (hnew b hb).elim (h.ahead a ha b) fun hlast => hlast a ha

theorem InTurn.hand (h : InTurn r handed waits') (hout : out.Pairwise r)
    (hafter : ∀ a ∈ handed, ∀ b ∈ out, r a b) (hbefore : ∀ a ∈ out, ∀ b, waits' b → r a b) :
    InTurn r (handed ++ out) waits' where
  ordered := List.pairwise_append.mpr ⟨h.ordered, hout, hafter⟩
  ahead a ha b hb := (List.mem_append.mp ha).elim (fun hold => h.ahead a hold b hb)
    fun hnew => hbefore a hnew b hb

theorem sublist_of_places {list : List α} {placed : List (α × ℕ)}
    (hplaces : ∀ own ∈ placed, list[own.2]? = some own.1)
    (hordered : placed.Pairwise fun a b => a.2 < b.2) :
    (placed.map Prod.fst).Sublist list := by
  have hnodup : placed.Nodup := hordered.imp fun {a b} hlt heq => by
    rw [heq] at hlt
    exact lt_irrefl _ hlt
  have hsub : placed ⊆ list.zipIdx := fun own hown =>
    List.mem_zipIdx_iff_getElem?.mpr (hplaces own hown)
  have hindexed : list.zipIdx.Pairwise fun a b => a.2 < b.2 := by
    have hmap : (list.zipIdx.map Prod.snd).Pairwise (· < ·) := by
      rw [List.zipIdx_map_snd]
      exact List.pairwise_lt_range'
    exact List.pairwise_map.mp hmap
  have : Std.Antisymm fun a b : α × ℕ => a.2 < b.2 :=
    ⟨fun a b hab hba => absurd hab (lt_asymm hba)⟩
  have hsublist : placed.Sublist list.zipIdx :=
    List.sublist_of_subperm_of_pairwise (List.subperm_of_subset hnodup hsub) hordered hindexed
  have hmapped := hsublist.map Prod.fst
  rwa [List.zipIdx_map_fst] at hmapped

end Fluxora.Lib.Turns
