/-
Rows split into sources by a key.  Every row goes to the group under its key, so the groups
hold all rows once, whatever the key is: splitting by blockchain and splitting by currency
lose nothing.  Groups become sources unless one of them stands under an id that a bookmark
cannot carry, and then the first of these is named.
-/
import MergedPaging.Proofs.BookmarkText
import MergedPaging.Catalog.Fixture

namespace MergedPaging

open Std

namespace SortedMap

variable {κ α : Type} [Ord κ] [TransOrd κ]

theorem group_append_singleton (key : α → κ) (items : List α) (item : α) :
    group key (items ++ [item]) = (group key items).insert (key item)
      (((group key items).get? (key item)).getD [] ++ [item]) := by
  rw [group, List.foldl_append]
  rfl

/-- Under a key stand all items with that key, in the order in which they come. -/
theorem get?_group [LawfulEqOrd κ] [DecidableEq κ] (key : α → κ) (items : List α) (k : κ) :
    (group key items).get? k =
      if k ∈ items.map key then some (items.filter fun item => key item = k) else none := by
  induction items using List.reverseRecOn generalizing k with
  | nil => rfl
  | append_singleton items item ih =>
      have hgathered : ((group key items).get? (key item)).getD [] =
          items.filter fun other => key other = key item := by
        rw [ih (key item)]
        split
        · rfl
        · rename_i hnone
          symm
          rw [Option.getD_none, List.filter_eq_nil_iff]
          intro other hother heq
          exact hnone (of_decide_eq_true heq ▸ List.mem_map_of_mem hother)
      rw [group_append_singleton, get?_insert, hgathered, ih k]
      by_cases hk : k = key item
      · subst hk
        simp
      · have hk' : key item ≠ k := Ne.symm hk
        simp [hk, hk']

end SortedMap

/-- Groups of rows: under each id that is the key of a row stand all rows with that key. -/
structure Splits {α : Type} (key : α → String) (rows : List α)
    (groups : List (String × List α)) : Prop where
  nodup : (groups.map Prod.fst).Nodup
  mem_ids : ∀ id, id ∈ groups.map Prod.fst ↔ id ∈ rows.map key
  rows_eq : ∀ group ∈ groups, group.2 = rows.filter fun row => key row = group.1

section Groups

variable {α : Type} {key : α → String} {rows : List α}

/-- The rows with the first key, then those with the next, and so on. -/
theorem flatMap_filter_perm (key : α → String) (rows : List α) {ids : List String}
    (hids : ids.Nodup) :
    (ids.flatMap fun id => rows.filter fun row => key row = id).Perm
      (rows.filter fun row => key row ∈ ids) := by
  induction ids with
  | nil => simp
  | cons id ids ih =>
      obtain ⟨hid, hids⟩ := List.nodup_cons.1 hids
      -- Both parts are filters of the rows with any of the keys, and each the rest of the other.
      have hhead : (rows.filter fun row => key row = id) =
          (rows.filter fun row => key row ∈ id :: ids).filter fun row => key row = id := by
        rw [List.filter_filter]
        apply List.filter_congr
        intro row _
        by_cases hrow : key row = id <;> simp [hrow]
      have htail : (rows.filter fun row => key row ∈ ids) =
          (rows.filter fun row => key row ∈ id :: ids).filter fun row => !(key row = id) := by
        rw [List.filter_filter]
        apply List.filter_congr
        intro row _
        by_cases hrow : key row = id <;> simp [hrow, hid]
      rw [List.flatMap_cons]
      refine ((ih hids).append_left _).trans ?_
      rw [hhead, htail]
      exact List.filter_append_perm _ _

/-- The groups together hold every row once. -/
theorem Splits.perm {groups : List (String × List α)} (h : Splits key rows groups) :
    (groups.flatMap Prod.snd).Perm rows := by
  have hgroups : groups.flatMap Prod.snd =
      (groups.map Prod.fst).flatMap fun id => rows.filter fun row => key row = id := by
    rw [List.flatMap_map]
    exact List.flatMap_congr h.rows_eq
  have hall : (rows.filter fun row => key row ∈ groups.map Prod.fst) = rows := by
    apply List.filter_eq_self.2
    intro row hrow
    exact decide_eq_true ((h.mem_ids (key row)).2 (List.mem_map_of_mem hrow))
  have hperm := flatMap_filter_perm key rows h.nodup
  rwa [← hgroups, hall] at hperm

theorem splits_group (key : α → String) (rows : List α) :
    Splits key rows (SortedMap.group key rows).entries where
  nodup := (SortedMap.group key rows).nodup_keys
  mem_ids id := by
    constructor
    · intro hid
      obtain ⟨entry, hentry, rfl⟩ := List.mem_map.1 hid
      have hget := SortedMap.get?_eq_some_of_mem hentry
      rw [SortedMap.get?_group] at hget
      split at hget
      · assumption
      · cases hget
    · intro hid
      have hget := SortedMap.get?_group key rows id
      rw [if_pos hid] at hget
      exact List.mem_map_of_mem (f := Prod.fst) (SortedMap.mem_of_get?_eq_some hget)
  rows_eq entry hentry := by
    have hget := SortedMap.get?_eq_some_of_mem hentry
    rw [SortedMap.get?_group] at hget
    split at hget
    · exact (Option.some.inj hget).symm
    · cases hget

theorem splits_groupByCurrency (orders : List Order) :
    Splits Order.currency orders (groupByCurrency orders).entries :=
  splits_group Order.currency orders

theorem Blockchain.mem_all (b : Blockchain) : b ∈ all := by
  cases b <;> decide

theorem Blockchain.name_injective : Function.Injective name := by
  intro a b
  cases a <;> cases b <;> decide

theorem mem_groupByBlockchain_iff [OnChain α] {group : Blockchain × List α} :
    group ∈ groupByBlockchain rows ↔
      group.2 = (rows.filter fun row => OnChain.blockchain row = group.1) ∧ group.2 ≠ [] := by
  rw [groupByBlockchain, List.mem_filter, List.mem_map, Bool.not_eq_true',
    List.isEmpty_eq_false_iff]
  constructor
  · rintro ⟨⟨b, -, rfl⟩, hne⟩
    exact ⟨rfl, hne⟩
  · rintro ⟨hrows, hne⟩
    exact ⟨⟨group.1, group.1.mem_all, Prod.ext rfl hrows.symm⟩, hne⟩

theorem nodup_groupByBlockchain [OnChain α] (rows : List α) :
    ((groupByBlockchain rows).map Prod.fst).Nodup := by
  have hall : ((Blockchain.all.map fun b =>
      (b, rows.filter fun row => OnChain.blockchain row = b)).map Prod.fst) = Blockchain.all := by
    rw [List.map_map]
    exact List.map_id _
  have hnodup : Blockchain.all.Nodup := by decide
  rw [← hall] at hnodup
  exact hnodup.sublist (List.filter_sublist.map Prod.fst)

theorem splits_groupByBlockchain [OnChain α] (rows : List α) :
    Splits (fun row => (OnChain.blockchain row).name) rows
      ((groupByBlockchain rows).map fun group => (group.1.name, group.2)) where
  nodup := by
    have hnodup := (nodup_groupByBlockchain rows).map Blockchain.name_injective
    rw [List.map_map] at hnodup ⊢
    exact hnodup
  mem_ids id := by
    rw [List.map_map]
    constructor
    · intro hid
      obtain ⟨group, hgroup, rfl⟩ := List.mem_map.1 hid
      obtain ⟨hrows, hne⟩ := mem_groupByBlockchain_iff.1 hgroup
      obtain ⟨row, hrow⟩ := List.exists_mem_of_ne_nil _ hne
      obtain ⟨hrow, hchain⟩ := List.mem_filter.1 (hrows ▸ hrow)
      exact List.mem_map.2 ⟨row, hrow, congrArg Blockchain.name (of_decide_eq_true hchain)⟩
    · intro hid
      obtain ⟨row, hrow, rfl⟩ := List.mem_map.1 hid
      have hmem : row ∈ rows.filter fun other => OnChain.blockchain other =
          OnChain.blockchain row := List.mem_filter.2 ⟨hrow, decide_eq_true rfl⟩
      exact List.mem_map.2 ⟨(OnChain.blockchain row, _),
        mem_groupByBlockchain_iff.2 ⟨rfl, List.ne_nil_of_mem hmem⟩, rfl⟩
  rows_eq := by
    intro _ hmem
    obtain ⟨group, hgroup, rfl⟩ := List.mem_map.1 hmem
    simpa [Blockchain.name_injective.eq_iff] using (mem_groupByBlockchain_iff.1 hgroup).1

end Groups

section Sources

variable {α : Type} [Sortable α] {order : SortOrder} {groups : List (String × List α)}

/-- A source of the rows of a group. -/
structure StaticSource.Holds (order : SortOrder) (group : String × List α)
    (s : StaticSource α) : Prop where
  id_eq : s.id = group.1
  order_eq : s.order = order
  entities_eq : s.entities = order.sort group.2

theorem sourcesOf_cons (id : String) (rows : List α) (groups : List (String × List α)) :
    sourcesOf order ((id, rows) :: groups) =
      if h : isWireSafeId id = true then
        (sourcesOf order groups).map (⟨id, order, order.sort rows, h, rows, rfl⟩ :: ·)
      else .error (.invalidSourceId id) := by
  by_cases hid : isWireSafeId id = true
  · have hsource : StaticSource.ofEntities? id order rows =
        some ⟨id, order, order.sort rows, hid, rows, rfl⟩ := dif_pos hid
    simp only [sourcesOf, List.mapM_cons, hsource, dif_pos hid]
    rfl
  · have hsource : StaticSource.ofEntities? id order rows = none := dif_neg hid
    simp only [sourcesOf, List.mapM_cons, hsource, dif_neg hid]
    rfl

/-- Groups under ids that a bookmark can carry become sources. -/
theorem exists_sourcesOf (order : SortOrder)
    (hsafe : ∀ group ∈ groups, isWireSafeId group.1 = true) :
    ∃ sources, sourcesOf order groups = .ok sources ∧
      List.Forall₂ (StaticSource.Holds order) groups sources := by
  induction groups with
  | nil => exact ⟨[], rfl, .nil⟩
  | cons group groups ih =>
      obtain ⟨id, rows⟩ := group
      have hid : isWireSafeId id = true := hsafe (id, rows) List.mem_cons_self
      obtain ⟨sources, hsources, hholds⟩ :=
        ih fun group hgroup => hsafe group (List.mem_cons_of_mem _ hgroup)
      refine ⟨⟨id, order, order.sort rows, hid, rows, rfl⟩ :: sources, ?_,
        .cons ⟨rfl, rfl, rfl⟩ hholds⟩
      rw [sourcesOf_cons, dif_pos hid, hsources]
      rfl

/-- The first group under any other id is an error. -/
theorem sourcesOf_eq_error {group : String × List α}
    (h : groups.find? (fun group => !isWireSafeId group.1) = some group) :
    sourcesOf order groups = .error (.invalidSourceId group.1) := by
  induction groups with
  | nil => cases h
  | cons first groups ih =>
      obtain ⟨id, rows⟩ := first
      rw [sourcesOf_cons]
      by_cases hid : isWireSafeId id = true
      · rw [List.find?_cons_of_neg (by simp [hid])] at h
        rw [dif_pos hid, ih h]
        rfl
      · rw [List.find?_cons_of_pos (by simp [hid])] at h
        cases h
        rw [dif_neg hid]

theorem map_id_of_holds {sources : List (StaticSource α)}
    (h : List.Forall₂ (StaticSource.Holds order) groups sources) :
    sources.map (·.id) = groups.map Prod.fst := by
  rw [eq_comm, ← List.forall₂_eq_eq_eq, List.forall₂_map_left_iff, List.forall₂_map_right_iff]
  exact h.imp fun _ _ hholds => hholds.id_eq.symm

theorem order_of_holds {sources : List (StaticSource α)}
    (h : List.Forall₂ (StaticSource.Holds order) groups sources) :
    ∀ s ∈ sources, s.order = order := by
  induction h with
  | nil => exact fun s hs => absurd hs List.not_mem_nil
  | cons hholds _ ih => exact List.forall_mem_cons.2 ⟨hholds.order_eq, ih⟩

/-- Sources of groups hold the rows of the groups, each group sorted. -/
theorem flatMap_entities_perm {sources : List (StaticSource α)}
    (h : List.Forall₂ (StaticSource.Holds order) groups sources) :
    (sources.flatMap (·.entities)).Perm (groups.flatMap Prod.snd) := by
  induction h with
  | nil => exact .refl _
  | cons hholds _ ih =>
      rw [List.flatMap_cons, List.flatMap_cons, hholds.entities_eq]
      exact (sortBy_perm _).append ih

end Sources

theorem Blockchain.isWireSafeId_name (b : Blockchain) : isWireSafeId b.name = true := by
  cases b <;> decide

/-- The name of a blockchain can always be the id of a source. -/
theorem exists_blockchainSources {α : Type} [Sortable α] [OnChain α] (order : SortOrder)
    (rows : List α) : ∃ sources, blockchainSources order rows = .ok sources ∧
      List.Forall₂ (StaticSource.Holds order)
        ((groupByBlockchain rows).map fun group => (group.1.name, group.2)) sources := by
  apply exists_sourcesOf
  intro _ hmem
  obtain ⟨group, -, rfl⟩ := List.mem_map.1 hmem
  exact group.1.isWireSafeId_name

theorem exists_currencySources (order : SortOrder) {orders : List Order}
    (hsafe : ∀ row ∈ orders, isWireSafeId row.currency = true) :
    ∃ sources, currencySources order orders = .ok sources ∧
      List.Forall₂ (StaticSource.Holds order) (groupByCurrency orders).entries sources := by
  apply exists_sourcesOf
  intro group hmem
  obtain ⟨row, hrow, hid⟩ := List.mem_map.1
    (((splits_groupByCurrency orders).mem_ids group.1).1 (List.mem_map_of_mem hmem))
  exact hid ▸ hsafe row hrow

/-- A currency that cannot be a source's id is an error, and the first one by name is it. -/
theorem currencySources_eq_error {order : SortOrder} {orders : List Order}
    (h : ∃ other ∈ orders, isWireSafeId other.currency = false) :
    ∃ first ∈ orders, isWireSafeId first.currency = false ∧
      currencySources order orders = .error (.invalidSourceId first.currency) ∧
        ∀ other ∈ orders, isWireSafeId other.currency = false →
          (compare first.currency other.currency).isLE := by
  have hids := (splits_groupByCurrency orders).mem_ids
  have hgroup {other : Order} (hother : other ∈ orders) :
      ∃ group ∈ (groupByCurrency orders).entries, group.1 = other.currency :=
    List.mem_map.1 ((hids other.currency).2 (List.mem_map_of_mem hother))
  cases hfound : (groupByCurrency orders).entries.find? fun group => !isWireSafeId group.1 with
  | none =>
      obtain ⟨other, hother, hbad⟩ := h
      obtain ⟨group, hmem, hid⟩ := hgroup hother
      have hsafe := List.find?_eq_none.1 hfound group hmem
      rw [hid, hbad] at hsafe
      exact absurd rfl hsafe
  | some group =>
      obtain ⟨first, hfirst, hcurrency⟩ := List.mem_map.1
        ((hids group.1).1 (List.mem_map_of_mem (List.mem_of_find?_eq_some hfound)))
      have hbad := List.find?_some hfound
      rw [← hcurrency, Bool.not_eq_true'] at hbad
      refine ⟨first, hfirst, hbad, hcurrency ▸ sourcesOf_eq_error hfound, ?_⟩
      intro other hother hbad'
      obtain ⟨group', hmem, hid⟩ := hgroup hother
      rw [hcurrency, ← hid]
      exact SortedMap.isLE_of_find? hfound hmem (by rw [hid, hbad']; rfl)

end MergedPaging
