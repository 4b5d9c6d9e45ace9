import Asyncmsg.Library.Recency
import Asyncmsg.Lru

namespace Asyncmsg
open Recency

namespace Lru
variable {α : Type} [DecidableEq α] {l : List (Nat × α)} {m : AList fun _ : α => Nat} {c : Lru α} {v : α} {it : Nat}

/-- The map holds exactly the iterators to the nodes of the list. -/
structure Linked (l : List (Nat × α)) (m : AList fun _ : α => Nat) : Prop where
  values : (l.map Prod.snd).Nodup
  nodes : (l.map Prod.fst).Nodup
  found : ∀ v it, m.lookup v = some it ↔ (it, v) ∈ l

theorem Linked.mem (linked : Linked l m) : v ∈ m ↔ v ∈ l.map Prod.snd := by
  rw [← AList.lookup_isSome, Option.isSome_iff_exists, List.mem_map]
  constructor
  · rintro ⟨it, found⟩
    exact ⟨(it, v), (linked.found v it).mp found, rfl⟩
  · rintro ⟨⟨it, _⟩, node, rfl⟩
    exact ⟨it, (linked.found _ it).mpr node⟩

theorem Linked.length (linked : Linked l m) : m.entries.length = l.length := by
  have keys : m.keys.Perm (l.map Prod.snd) :=
    (List.perm_ext_iff_of_nodup m.keys_nodup linked.values).mpr fun v => AList.mem_keys.symm.trans linked.mem
  have same := keys.length_eq
  rwa [AList.keys, List.keys, List.length_map, List.length_map] at same

theorem Linked.perm (linked : Linked l m) {l' : List (Nat × α)} (perm : l'.Perm l) : Linked l' m where
  values := (perm.map _).nodup_iff.mpr linked.values
  nodes := (perm.map _).nodup_iff.mpr linked.nodes
  found v it := (linked.found v it).trans perm.mem_iff.symm

/-- Following an iterator splits the list at its node. -/
theorem Linked.split (linked : Linked l m) (found : m.lookup v = some it) :
    l.filter (·.1 == it) = [(it, v)] ∧ (l.filter (·.1 != it)).map Prod.snd = (l.map Prod.snd).erase v := by
  obtain ⟨before, after, split⟩ := List.append_of_mem ((linked.found v it).mp found)
  have nodes := linked.nodes
  have values := linked.values
  rw [split, List.map_append, List.map_cons, List.nodup_middle, List.nodup_cons, ← List.map_append] at nodes values
  have others : ∀ node ∈ before ++ after, node.1 ≠ it := fun node member same =>
    nodes.1 (List.mem_map.mpr ⟨node, member, same⟩)
  have left : ∀ node ∈ before, node.1 ≠ it := fun node member => others node (List.mem_append_left _ member)
  have right : ∀ node ∈ after, node.1 ≠ it := fun node member => others node (List.mem_append_right _ member)
  have fresh : v ∉ before.map Prod.snd := fun member =>
    values.1 (List.map_append ▸ List.mem_append_left _ member)
  constructor
  · rw [split, List.filter_append, List.filter_cons_of_pos (by simp),
      List.filter_eq_nil_iff.mpr (by simpa using left), List.filter_eq_nil_iff.mpr (by simpa using right)]
    rfl
  · rw [split, List.filter_append, List.filter_cons_of_neg (by simp),
      List.filter_eq_self.mpr (by simpa using left), List.filter_eq_self.mpr (by simpa using right),
      List.map_append, List.map_append, List.map_cons, List.erase_append_right _ fresh, List.erase_cons_head]

/-- The nodes of the other values. -/
def others (l : List (Nat × α)) (m : AList fun _ : α => Nat) (v : α) : List (Nat × α) :=
  match m.lookup v with
  | none => l
  | some it => l.filter (·.1 != it)

theorem others_sublist : (others l m v).Sublist l := by
  unfold others
  split
  · exact .refl _
  · exact List.filter_sublist

theorem Linked.values_others (linked : Linked l m) (v : α) :
    (others l m v).map Prod.snd = (l.map Prod.snd).erase v := by
  unfold others
  split
  · rename_i missing
    refine (List.erase_of_not_mem fun member => ?_).symm
    rw [← linked.mem, ← AList.lookup_isSome, missing] at member
    cases member
  · exact (linked.split ‹_›).2

theorem Linked.mem_others (linked : Linked l m) {w : α} (other : w ≠ v) : (it, w) ∈ others l m v ↔ (it, w) ∈ l := by
  refine ⟨fun member => others_sublist.subset member, fun member => ?_⟩
  have kept : w ∈ (others l m v).map Prod.snd := by
    rw [linked.values_others, List.mem_erase_of_ne other]
    exact List.mem_map_of_mem member
  obtain ⟨⟨it', _⟩, node, rfl⟩ := List.mem_map.mp kept
  have same := ((linked.found _ it').mpr (others_sublist.subset node)).symm.trans ((linked.found _ it).mpr member)
  cases same
  exact node

/-- A new node in front takes the place of the old one with its value. -/
theorem Linked.insert (linked : Linked l m) (v : α) (fresh : it ∉ l.map Prod.fst) :
    Linked ((it, v) :: others l m v) (m.insert v it) where
  values := by
    rw [List.map_cons, linked.values_others]
    exact nodup_touch linked.values
  nodes := List.nodup_cons.mpr ⟨fun member => fresh ((others_sublist.map _).subset member),
    (others_sublist.map _).nodup linked.nodes⟩
  found w place := by
    by_cases same : w = v
    · subst same
      rw [AList.lookup_insert, List.mem_cons, Option.some_inj, Prod.mk.injEq]
      refine ⟨fun here => Or.inl ⟨here.symm, rfl⟩, ?_⟩
      rintro (⟨rfl, _⟩ | old)
      · rfl
      · have kept : w ∈ (others l m w).map Prod.snd := List.mem_map_of_mem old
        rw [linked.values_others] at kept
        exact absurd kept linked.values.not_mem_erase
    · rw [AList.lookup_insert_ne same, linked.found, List.mem_cons, linked.mem_others same]
      exact (or_iff_right fun here => same (Prod.mk.inj here).2).symm

/-- The last node can be taken away. -/
theorem Linked.evict {node : Nat × α} (linked : Linked (l ++ [node]) m) : Linked l (m.erase node.2) where
  values := (((List.sublist_append_left l [node]).map _).nodup) linked.values
  nodes := (((List.sublist_append_left l [node]).map _).nodup) linked.nodes
  found w place := by
    have values := linked.values
    rw [List.map_append, List.nodup_append] at values
    by_cases same : w = node.2
    · subst same
      rw [AList.lookup_erase]
      refine iff_of_false (by simp) fun member => ?_
      exact values.2.2 _ (List.mem_map_of_mem member) _ (List.mem_singleton_self _) rfl
    · rw [AList.lookup_erase_ne same, linked.found, List.mem_append, List.mem_singleton]
      exact or_iff_left fun here => same (congrArg Prod.snd here)

/-- A table between two operations. -/
structure WellFormed (c : Lru α) : Prop where
  linked : Linked c.l c.m
  fresh : ∀ node ∈ c.l, node.1 < c.next
  within : c.l.length ≤ c.cap

/-- The values, the most recent ones first. -/
def values (c : Lru α) : List α := c.l.map Prod.snd

theorem ofCap_wellFormed (cap : Nat) : (ofCap (α := α) cap).WellFormed where
  linked := ⟨List.nodup_nil, List.nodup_nil, fun v it => by simp [ofCap]⟩
  fresh _ member := by cases member
  within := Nat.zero_le _

theorem WellFormed.mem (wellFormed : c.WellFormed) : v ∈ c.m ↔ v ∈ c.values := wellFormed.linked.mem

/-- `exist` moves a value that is there to the front. -/
theorem WellFormed.exist (wellFormed : c.WellFormed) (known : v ∈ c.m) :
    (c.exist v).2.WellFormed ∧ (c.exist v).2.values = touch c.values v := by
  obtain ⟨it, found⟩ := Option.isSome_iff_exists.mp (AList.lookup_isSome.mpr known)
  have moved : (c.exist v).2 = { c with l := c.l.filter (·.1 == it) ++ c.l.filter (·.1 != it) } := by
    rw [Lru.exist, found]
  have perm : (c.l.filter (·.1 == it) ++ c.l.filter (·.1 != it)).Perm c.l := List.filter_append_perm _ _
  obtain ⟨first, rest⟩ := wellFormed.linked.split found
  rw [moved]
  refine ⟨⟨wellFormed.linked.perm perm, fun node member => wellFormed.fresh node (perm.subset member), ?_⟩, ?_⟩
  · exact perm.length_eq.trans_le wellFormed.within
  · rw [values, List.map_append, rest, first]
    rfl

theorem exist_of_not_mem (unknown : v ∉ c.m) : (c.exist v).2 = c := by
  have missing : c.m.lookup v = none := AList.lookup_eq_none.mpr unknown
  rw [Lru.exist, missing]

/-- `put` brings a value to the front and forgets what is beyond the capacity. -/
theorem WellFormed.put (wellFormed : c.WellFormed) (v : α) :
    (c.put v).WellFormed ∧ (c.put v).values = (touch c.values v).take c.cap := by
  have beyond : c.next ∉ c.l.map Prod.fst := fun member => by
    obtain ⟨node, inside, same⟩ := List.mem_map.mp member
    exact absurd (wellFormed.fresh node inside) (by omega)
  have linked := wellFormed.linked.insert v beyond
  have values : ((c.next, v) :: others c.l c.m v).map Prod.snd = touch c.values v :=
    congrArg (v :: ·) (wellFormed.linked.values_others v)
  have fresh : ∀ node ∈ (c.next, v) :: others c.l c.m v, node.1 < c.next + 1 := fun node member => by
    rcases List.mem_cons.mp member with rfl | old
    · exact Nat.lt_succ_self _
    · exact Nat.lt_succ_of_lt (wellFormed.fresh node (others_sublist.subset old))
  have most : ((c.next, v) :: others c.l c.m v).length ≤ c.cap + 1 :=
    Nat.succ_le_succ (others_sublist.length_le.trans wellFormed.within)
  have size := linked.length
  -- `put` is this list and this map, or both without the last node.
  generalize shape : (c.next, v) :: others c.l c.m v = all at linked values fresh most size
  have nonempty : all ≠ [] := shape ▸ List.cons_ne_nil _ _
  have put_eq : c.put v = if c.cap < (c.m.insert v c.next).entries.length then
      ⟨c.cap, all.dropLast, (c.m.insert v c.next).erase (all.getLast nonempty).2, c.next + 1⟩
    else ⟨c.cap, all, c.m.insert v c.next, c.next + 1⟩ := by
    subst shape
    rfl
  rw [put_eq, size]
  split
  · rename_i full
    have parts := List.dropLast_append_getLast nonempty
    have short : all.dropLast.length = c.cap := by
      rw [List.length_dropLast]
      omega
    refine ⟨⟨?_, fun node member => fresh node (List.dropLast_subset _ member), short.le⟩, ?_⟩
    · exact Linked.evict (parts.symm ▸ linked)
    · rw [Lru.values, ← values, List.map_dropLast, List.dropLast_eq_take, List.length_map]
      congr 1
      omega
  · rename_i room
    refine ⟨⟨linked, fresh, not_lt.mp room⟩, ?_⟩
    rw [← values, List.take_of_length_le (by rw [List.length_map]; exact not_lt.mp room)]
    rfl

/-- Looking a value up and putting it in where it is missing keeps the most recent
values up to the capacity. -/
theorem WellFormed.touched (wellFormed : c.WellFormed) (v : α) :
    (if (c.exist v).1 then (c.exist v).2 else (c.exist v).2.put v).WellFormed ∧
      (if (c.exist v).1 then (c.exist v).2 else (c.exist v).2.put v).values = (touch c.values v).take c.cap := by
  split
  · have known := exist_iff.mp ‹_›
    obtain ⟨after, values⟩ := wellFormed.exist known
    have short : (touch c.values v).length ≤ c.cap := by
      rw [length_touch_of_mem (wellFormed.mem.mp known), Lru.values, List.length_map]
      exact wellFormed.within
    exact ⟨after, values.trans (List.take_of_length_le short).symm⟩
  · have unknown : v ∉ c.m := mt exist_iff.mpr ‹_›
    rw [exist_of_not_mem unknown]
    exact wellFormed.put v

end Lru
end Asyncmsg
