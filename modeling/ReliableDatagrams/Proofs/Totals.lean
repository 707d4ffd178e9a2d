import Mathlib.Data.List.Perm.Basic
import Mathlib.Tactic.Common
import ReliableDatagrams.Proofs.RecordChanges
import ReliableDatagrams.Table

/-!
# Totals over maps and tables

What the values of a sorted map, or of a table, add up to when each has a weight. Filing a value
under a key exchanges the weight of what was there for the new one, removing it takes the old weight
away.
-/

namespace ReliableDatagrams.Proofs

def total {α : Type} (weight : α → Nat) (items : List α) : Nat :=
  items.foldr (fun item sum => weight item + sum) 0

section Lists

variable {α β : Type} (weight : α → Nat)

@[simp] lemma total_nil : total weight [] = 0 := rfl

@[simp] lemma total_cons (item : α) (items : List α) :
    total weight (item :: items) = weight item + total weight items := rfl

lemma total_perm {items more : List α} (h : items.Perm more) :
    total weight items = total weight more := by
  induction h with
  | nil => rfl
  | cons item _ ih => simp [ih]
  | swap first second rest => simp [Nat.add_left_comm]
  | trans _ _ ih more => exact ih.trans more

lemma total_le_mul_length {most : Nat} (h : ∀ item, weight item ≤ most) (items : List α) :
    total weight items ≤ most * items.length := by
  induction items with
  | nil => simp
  | cons item rest ih =>
    have hitem := h item
    simp only [total_cons, List.length_cons, Nat.mul_add]
    omega

lemma total_congr {other : α → Nat} {items : List α} (h : ∀ item ∈ items, weight item = other item) :
    total weight items = total other items := by
  induction items with
  | nil => rfl
  | cons item rest ih =>
    rw [total_cons, total_cons, h item List.mem_cons_self,
      ih fun later hlater => h later (List.mem_cons_of_mem _ hlater)]

lemma total_map (change : β → α) (items : List β) :
    total weight (items.map change) = total (fun item => weight (change item)) items := by
  induction items with
  | nil => rfl
  | cons item rest ih => rw [List.map_cons, total_cons, total_cons, ih]

lemma total_one (items : List α) : total (fun _ => 1) items = items.length := by
  induction items with
  | nil => rfl
  | cons item rest ih => rw [total_cons, ih, List.length_cons, Nat.add_comm]

end Lists

section Maps

variable {κ α : Type} [Ord κ] [Std.TransOrd κ] [Std.LawfulEqOrd κ] [DecidableEq κ]

omit [Std.LawfulEqOrd κ] [DecidableEq κ] in
lemma values_eq_map_toList (map : Std.ExtTreeMap κ α) :
    map.values = map.toList.map Prod.snd := by
  obtain ⟨map⟩ := map
  induction map using Std.ExtDTreeMap.inductionOn with
  | mk map =>
    have hvalues := @Std.DTreeMap.Internal.Impl.values_eq_map_snd κ α map.inner
    have hentries := @Std.DTreeMap.Internal.Impl.Const.toList_eq_toListModel_map κ α map.inner
    have htail : map.inner.values =
        (Std.DTreeMap.Internal.Impl.Const.toList map.inner).map Prod.snd := by
      rw [hvalues, hentries, List.map_map]
      rfl
    exact htail

omit [DecidableEq κ] in
lemma nodup_toList (map : Std.ExtTreeMap κ α) : map.toList.Nodup := by
  refine List.Pairwise.imp ?_ map.distinct_keys_toList
  intro entry other hkeys hsame
  rw [hsame] at hkeys
  exact hkeys Std.ReflOrd.compare_self

/-- The entries of a map are one of them, and those that stay without it. -/
lemma toList_perm_of_getElem? {map : Std.ExtTreeMap κ α} {key : κ} {value : α}
    (h : map[key]? = some value) : map.toList.Perm ((key, value) :: (map.erase key).toList) := by
  have herased : (key, value) ∉ (map.erase key).toList := by
    rw [Std.ExtTreeMap.mem_toList_iff_getElem?_eq_some, getElem?_erase_eq, if_pos rfl]
    exact nofun
  rw [List.perm_ext_iff_of_nodup (nodup_toList map)
    (List.nodup_cons.2 ⟨herased, nodup_toList _⟩)]
  rintro ⟨other, found⟩
  rw [List.mem_cons, Std.ExtTreeMap.mem_toList_iff_getElem?_eq_some,
    Std.ExtTreeMap.mem_toList_iff_getElem?_eq_some, getElem?_erase_eq, Prod.mk.injEq]
  by_cases hkey : key = other
  · subst hkey
    simp [h, eq_comm]
  · have hother : ¬ other = key := fun hsame => hkey hsame.symm
    simp [hkey, hother]

variable (weight : α → Nat) (map : Std.ExtTreeMap κ α) (key : κ)

lemma total_values_erase : total weight (map.erase key).values + (map[key]?).elim 0 weight =
    total weight map.values := by
  cases h : map[key]? with
  | none =>
    rw [erase_eq_self map key h]
    rfl
  | some value =>
    rw [values_eq_map_toList map, total_perm weight ((toList_perm_of_getElem? h).map Prod.snd),
      values_eq_map_toList]
    simp [Nat.add_comm]

lemma total_values_insert (value : α) :
    total weight (map.insert key value).values + (map[key]?).elim 0 weight =
      total weight map.values + weight value := by
  have hinserted := total_values_erase weight (map.insert key value) key
  have herased := total_values_erase weight map key
  rw [erase_insert_eq, Std.ExtTreeMap.getElem?_insert_self] at hinserted
  simp only [Option.elim_some] at hinserted
  omega

end Maps

end ReliableDatagrams.Proofs
