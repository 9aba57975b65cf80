/-
Order books.  Orders are listed by price and then id, those without a price last.  However a
book is split into sources, and whatever the size of its pages, draining a gateway over the
sources gives the one list in which every order comes after the one before it.
-/
import MergedPaging.Proofs.CursorText
import MergedPaging.Proofs.Drain
import MergedPaging.Proofs.Splitting
import MergedPaging.Catalog.Listing
import MergedPaging.CommandLine.Run

namespace MergedPaging

open Std

namespace SortedMap

variable {κ ν : Type} [Ord κ]

theorem insertEntry_perm {key : κ} {value : ν} {entries : List (κ × ν)}
    (hfresh : lookup key entries = none) :
    (insertEntry key value entries).Perm ((key, value) :: entries) := by
  induction entries with
  | nil => exact .refl _
  | cons entry entries ih =>
      obtain ⟨k, v⟩ := entry
      rw [lookup] at hfresh
      rw [insertEntry]
      split at hfresh
      · cases hfresh
      · rename_i hne
        split
        · exact .refl _
        · contradiction
        · exact ((ih hfresh).cons (k, v)).trans (.swap _ _ _)

end SortedMap

namespace Gateway

variable {m : Type → Type} {α : Type}

/-- A source under an id of its own is added to those that are registered. -/
theorem exists_add {g : Gateway m α} {s : Source m α} (hsafe : isWireSafeId s.id = true)
    (hfresh : g.sources.get? s.id = none) :
    ∃ added, g.add s = .ok added ∧ added.merge = g.merge ∧ added.config = g.config ∧
      added.sources = g.sources.insert s.id s := by
  have hnew : ¬ (g.sources.get? s.id).isSome = true := by simp [hfresh]
  rw [add, dif_pos hsafe, if_neg hnew]
  exact ⟨_, rfl, rfl, rfl, rfl⟩

/-- Sources under ids of their own are all registered. -/
theorem exists_foldlM_add {sources : List (Source m α)}
    (hsafe : ∀ s ∈ sources, isWireSafeId s.id = true) (hids : (sources.map (·.id)).Nodup)
    {g : Gateway m α} (hfresh : ∀ s ∈ sources, g.sources.get? s.id = none) :
    ∃ full, sources.foldlM add g = .ok full ∧ full.merge = g.merge ∧ full.config = g.config ∧
      full.sources.values.Perm (sources ++ g.sources.values) := by
  induction sources generalizing g with
  | nil => exact ⟨g, rfl, rfl, rfl, .refl _⟩
  | cons s sources ih =>
      obtain ⟨hid, hids⟩ := List.nodup_cons.1 hids
      obtain ⟨added, hadded, hmerge, hconfig, hsources⟩ :=
        exists_add (hsafe s List.mem_cons_self) (hfresh s List.mem_cons_self)
      have hrest : ∀ other ∈ sources, added.sources.get? other.id = none := by
        intro other hother
        have hne : other.id ≠ s.id := by
          intro heq
          exact hid (List.mem_map.2 ⟨other, hother, heq⟩)
        rw [hsources, SortedMap.get?_insert, if_neg hne]
        exact hfresh other (List.mem_cons_of_mem _ hother)
      obtain ⟨full, hfull, hmerge', hconfig', hvalues⟩ :=
        ih (fun other hother => hsafe other (List.mem_cons_of_mem _ hother)) hids hrest
      have hinserted : added.sources.values.Perm (s :: g.sources.values) := by
        rw [hsources]
        exact (SortedMap.insertEntry_perm (hfresh s List.mem_cons_self)).map Prod.snd
      refine ⟨full, ?_, hmerge'.trans hmerge, hconfig'.trans hconfig, ?_⟩
      · rw [List.foldlM_cons, hadded]
        exact hfull
      · exact hvalues.trans ((hinserted.append_left sources).trans List.perm_middle)

/-- If all sources are enabled, a request that names none asks all of them. -/
theorem participants_nil {g : Gateway m α}
    (henabled : ∀ s ∈ g.sources.values, g.config.sources.isEnabled s.id = true) :
    g.participants [] = .ok g.sources.values := by
  have hall : g.available = g.sources.values := List.filter_eq_self.2 henabled
  rw [participants, hall]
  exact congrArg Except.ok (List.filter_eq_self.2 fun _ _ => rfl)

end Gateway

open Gateway CommandLine

variable {α : Type} [Sortable α]

/-- What is a rearrangement of images is an image of a rearrangement. -/
theorem exists_perm_of_perm_map {β γ : Type} {f : β → γ} {items : List β} {images : List γ}
    (h : images.Perm (items.map f)) : ∃ moved, images = List.map f moved ∧ moved.Perm items := by
  have hsame : List.Forall₂ (fun image item => image = f item) (items.map f) items :=
    List.forall₂_map_left_iff.2 (List.forall₂_same.2 fun _ _ => rfl)
  obtain ⟨moved, himages, hmoved⟩ := List.perm_comp_forall₂ h hsame
  refine ⟨moved, ?_, hmoved⟩
  rwa [← List.forall₂_eq_eq_eq, List.forall₂_map_right_iff]

/-- A gateway over fixed sources with ids of their own holds exactly these sources. -/
theorem exists_gatewayOf (o : SortOrder) (config : Config) {sources : List (StaticSource α)}
    (hids : (sources.map (·.id)).Nodup) :
    ∃ g, gatewayOf o config sources = .ok g ∧ g.merge = .single o ∧ g.config = config ∧
      ∃ backends : List (StaticSource α),
        g.sources.values = backends.map StaticSource.toSource ∧ backends.Perm sources := by
  have hsafe : ∀ s ∈ sources.map (StaticSource.toSource (m := Id)), isWireSafeId s.id = true := by
    intro _ hs
    obtain ⟨s, -, rfl⟩ := List.mem_map.1 hs
    exact s.wireSafe
  obtain ⟨g, hg, hmerge, hconfig, hvalues⟩ := exists_foldlM_add hsafe
    (by rw [List.map_map]; exact hids) (g := Gateway.new (.single o) config) fun _ _ => rfl
  have hnone : (Gateway.new (.single o) config : Gateway Id α).sources.values = [] := rfl
  rw [List.foldlM_map] at hg
  rw [hnone, List.append_nil] at hvalues
  exact ⟨g, hg, hmerge, hconfig, exists_perm_of_perm_map hvalues⟩

namespace SortOrder

/-- A list of rows, each in order after the one before it and those without a price behind
all others. -/
structure IsBook (o : SortOrder) (rows book : List α) : Prop where
  perm : book.Perm rows
  increasing : book.Pairwise fun a b => o.compare a b = .lt
  pricedFirst : book.Pairwise fun a b => Sortable.price a = none → Sortable.price b = none

/-- Rows are listed in one way only. -/
theorem IsBook.unique {o : SortOrder} {rows book book' : List α} (h : o.IsBook rows book)
    (h' : o.IsBook rows book') : book = book' := by
  apply List.Perm.eq_of_pairwise _ h.increasing h'.increasing (h.perm.trans h'.perm.symm)
  intro a b _ _ hab hba
  rw [OrientedCmp.gt_of_lt hab] at hba
  cases hba

variable {d : Direction}

theorem price_eq_none_of_lt {a b : α} (h : compare ⟨.price, d⟩ a b = .lt)
    (ha : Sortable.price a = none) : Sortable.price b = none := by
  change ((Ord.compare (Sortable.price a).isNone (Sortable.price b).isNone).then _) = .lt at h
  rw [ha] at h
  cases hb : Sortable.price b with
  | none => rfl
  | some price =>
      rw [hb] at h
      cases h

/-- Rows in order, no two of them equal, are a book. -/
theorem isBook_of_pairwise {rows book : List α} (hperm : book.Perm rows)
    (hapart : rows.Pairwise fun a b => compare ⟨.price, d⟩ a b ≠ .eq)
    (hbook : book.Pairwise fun a b => (compare ⟨.price, d⟩ a b).isLE) :
    IsBook ⟨.price, d⟩ rows book := by
  have hne : book.Pairwise fun a b => compare ⟨.price, d⟩ a b ≠ .eq := by
    apply (hperm.pairwise_iff _).2 hapart
    intro a b hab hba
    exact hab (OrientedCmp.eq_symm hba)
  have hlt : book.Pairwise fun a b => compare ⟨.price, d⟩ a b = .lt := by
    refine (hbook.and hne).imp ?_
    rintro a b ⟨hle, hne⟩
    exact (Ordering.isLE_iff_eq_lt_or_eq_eq.1 hle).resolve_right hne
  exact ⟨hperm, hlt, hlt.imp price_eq_none_of_lt⟩

theorem isBook_sort {rows : List α}
    (hapart : rows.Pairwise fun a b => compare ⟨.price, d⟩ a b ≠ .eq) :
    IsBook ⟨.price, d⟩ rows (sort ⟨.price, d⟩ rows) :=
  isBook_of_pairwise (sortBy_perm rows) hapart (pairwise_sortBy rows)

/-- The text of a row's position by price can be put into a bookmark as long as the row's id
can: a number holds no separator, and the text is not the mark, which has no underscore. -/
theorem carries_price {row : α} (hid : ';' ∉ (Sortable.id row).toList) :
    Carries ⟨.price, d⟩ row := by
  have htext : (continuationOf ⟨.price, d⟩ row).toList =
      ((Sortable.price row).map Decimal.print).getD [] ++ '_' :: (Sortable.id row).toList :=
    String.toList_ofList
  constructor
  · rw [htext, List.mem_append, List.mem_cons, not_or, not_or]
    refine ⟨?_, by decide, hid⟩
    cases Sortable.price row with
    | none => exact List.not_mem_nil
    | some price => exact price.notMem_print (by decide) (by decide) (by decide)
  · intro hmark
    have hunderscore : '_' ∈ (continuationOf ⟨.price, d⟩ row).toList := by
      rw [htext]
      simp
    rw [hmark] at hunderscore
    exact absurd hunderscore (by decide)
  · exact restores_price d row

end SortOrder

namespace Merge

theorem map_snd_outstanding_empty (backends : List (StaticSource α)) :
    (outstanding backends .empty).map Prod.snd = backends.flatMap (·.entities) := by
  rw [outstanding, List.map_flatMap]
  apply List.flatMap_congr
  intro s _
  rw [List.map_map]
  exact List.map_id _

/-- In merge order, all rows of sources make a book, if no two of them are equal. -/
theorem isBook_stream {d : Direction} {backends : List (StaticSource α)} {rows : List α}
    (hrows : (backends.flatMap (·.entities)).Perm rows)
    (hapart : rows.Pairwise fun a b => SortOrder.compare ⟨.price, d⟩ a b ≠ .eq) :
    SortOrder.IsBook ⟨.price, d⟩ rows
      (((single ⟨.price, d⟩).stream backends .empty).map Prod.snd) := by
  have hperm := ((single ⟨.price, d⟩).inOrder_perm (outstanding backends .empty)).map Prod.snd
  rw [map_snd_outstanding_empty] at hperm
  apply SortOrder.isBook_of_pairwise (hperm.trans hrows) hapart
  rw [List.pairwise_map]
  refine (pairwise_stream _ _ _).imp ?_
  intro a b hab
  rw [rank] at hab
  cases hcompare : SortOrder.compare ⟨.price, d⟩ a.2 b.2 with
  | lt => rfl
  | eq => rfl
  | gt =>
      change ((SortOrder.compare ⟨.price, d⟩ a.2 b.2).then _).isLE at hab
      rw [hcompare] at hab
      cases hab

end Merge

section Drain

variable {d : Direction} {rows book : List α}

/-- A drain of sources that are ordered by price gives the book of all their rows, if the
pages can hold it. -/
theorem Gateway.drain_eq_book {g : Gateway Id α} (hmerge : g.merge = .single ⟨.price, d⟩)
    (hconfig : g.config.check = .ok ()) {backends : List (StaticSource α)}
    (hsources : g.participants [] = .ok (backends.map StaticSource.toSource))
    (horder : ∀ s ∈ backends, s.order = ⟨.price, d⟩)
    (hrows : (backends.flatMap (·.entities)).Perm rows)
    (hapart : rows.Pairwise fun a b => SortOrder.compare ⟨.price, d⟩ a b ≠ .eq)
    (hids : ∀ row ∈ rows, ';' ∉ (Sortable.id row).toList)
    (hbook : SortOrder.IsBook ⟨.price, d⟩ rows book) {size : Option Nat} {n : Nat}
    (hsize : g.resolveSize size = .ok n)
    (hfit : max 1 (rows.length ⌈/⌉ n) ≤ g.config.paging.maxDrainPages) :
    (g.drain { size }).run = .ok book := by
  have hplan : g.plan { size } = .ok ⟨n, .empty, backends.map StaticSource.toSource⟩ :=
    plan_eq_ok_iff.2 ⟨hsize, rfl, hsources⟩
  have hn := one_le_size hconfig hsize
  have hmem {s : StaticSource α} (hs : s ∈ backends) {row : α} (hrow : row ∈ s.entities) :
      row ∈ rows := hrows.subset (List.mem_flatMap.2 ⟨s, hs, hrow⟩)
  have hseparates : ∀ s ∈ backends, s.entities.Pairwise g.merge.Separates := by
    intro s hs
    have hpart := (hrows.pairwise_iff fun h h' => h (OrientedCmp.eq_symm h')).2 hapart
    rw [hmerge]
    exact ((List.pairwise_flatMap.1 hpart).1 s hs).imp fun hne => ⟨rfl, hne⟩
  have hcarries : ∀ s ∈ backends, ∀ row ∈ s.entities, s.order.Carries row := by
    intro s hs row hrow
    rw [horder s hs]
    exact SortOrder.carries_price (hids row (hmem hs hrow))
  have hserves := serves_of_participants (fun s => s.id_toSource) hsources
    (fun s hs => (horder s hs).trans (by rw [hmerge]; rfl)) hseparates
  -- What is drained is a book of the same rows, and there is only one.
  have hstream := (Merge.isBook_stream hrows hapart).unique hbook
  have hlength : ((Merge.single ⟨.price, d⟩).stream backends .empty).length = rows.length := by
    rw [← List.length_map Prod.snd, hstream, hbook.perm.length_eq]
  rw [Nat.max_le, ceilDiv_le_iff_le_mul hn] at hfit
  rw [drain, follow_eq hserves hcarries hn hplan, pure_bind, hmerge, hlength, if_pos hfit,
    hstream]
  rfl

/-- Rows that are split into sources are drained as their book, however they are split and
whatever the size of the pages. -/
theorem exists_gateway_drains {key : α → String} {groups : List (String × List α)}
    (hsplits : Splits key rows groups) {sources : List (StaticSource α)}
    (hsources : List.Forall₂ (StaticSource.Holds ⟨.price, d⟩) groups sources)
    (hapart : rows.Pairwise fun a b => SortOrder.compare ⟨.price, d⟩ a b ≠ .eq)
    (hids : ∀ row ∈ rows, ';' ∉ (Sortable.id row).toList)
    (hbook : SortOrder.IsBook ⟨.price, d⟩ rows book) {config : Config}
    (hconfig : config.check = .ok ())
    (henabled : ∀ s ∈ sources, config.sources.isEnabled s.id = true) :
    ∃ g, gatewayOf ⟨.price, d⟩ config sources = .ok g ∧ g.config = config ∧
      ∀ size n, g.resolveSize size = .ok n →
        max 1 (rows.length ⌈/⌉ n) ≤ config.paging.maxDrainPages →
          (g.drain { size }).run = .ok book := by
  have hnodup : (sources.map (·.id)).Nodup := map_id_of_holds hsources ▸ hsplits.nodup
  obtain ⟨g, hg, hmerge, rfl, backends, hvalues, hperm⟩ := exists_gatewayOf _ config hnodup
  have hall : g.participants [] = .ok (backends.map StaticSource.toSource) := by
    rw [← hvalues]
    apply participants_nil
    intro _ hsource
    obtain ⟨s, hs, rfl⟩ := List.mem_map.1 (hvalues ▸ hsource)
    exact henabled s (hperm.subset hs)
  have horder : ∀ s ∈ backends, s.order = ⟨.price, d⟩ :=
    fun s hs => order_of_holds hsources s (hperm.subset hs)
  have hrows : (backends.flatMap (·.entities)).Perm rows :=
    (hperm.flatMap_right _).trans ((flatMap_entities_perm hsources).trans hsplits.perm)
  exact ⟨g, hg, rfl, fun size n hsize hfit =>
    drain_eq_book hmerge hconfig hall horder hrows hapart hids hbook hsize hfit⟩

end Drain

namespace Listing

/-- A book of offers to sell or of bids does not depend on how it is split or paged.  Orders
that are all apart make one book, which is what a drain gives, whether the sources are one per
blockchain or one per currency, for every size of page with which the pages suffice.  A
currency that cannot be the id of a source makes the split by currency fail for the first
such currency. -/
theorem drains_one_book {listing : Listing}
    (hlisting : listing = .sellOrders ∨ listing = .bids) (orders : List Order) :
    (orders.Pairwise (fun a b => listing.order.compare a b ≠ .eq) →
      (∀ order ∈ orders, isWireSafeId order.currency = true) →
      (∀ order ∈ orders, ';' ∉ order.id.toList) →
        ∃ book byBlockchain byCurrency, listing.order.IsBook orders book ∧
          blockchainSources listing.order orders = .ok byBlockchain ∧
          currencySources listing.order orders = .ok byCurrency ∧
          ∀ sources, sources = byBlockchain ∨ sources = byCurrency →
            ∀ config : Config, config.check = .ok () →
              (∀ s ∈ sources, config.sources.isEnabled s.id = true) →
                ∃ g, gatewayOf listing.order config sources = .ok g ∧ g.config = config ∧
                  ∀ size n, g.resolveSize size = .ok n →
                    max 1 (orders.length ⌈/⌉ n) ≤ config.paging.maxDrainPages →
                      (g.drain { size }).run = .ok book) ∧
    ((∃ order ∈ orders, isWireSafeId order.currency = false) →
      ∃ first ∈ orders, isWireSafeId first.currency = false ∧
        currencySources listing.order orders = .error (.invalidSourceId first.currency) ∧
          ∀ other ∈ orders, isWireSafeId other.currency = false →
            (compare first.currency other.currency).isLE) := by
  refine ⟨?_, currencySources_eq_error⟩
  intro hapart hcurrencies hids
  obtain ⟨d, horder⟩ : ∃ d, listing.order = ⟨.price, d⟩ := by
    rcases hlisting with rfl | rfl
    · exact ⟨.asc, rfl⟩
    · exact ⟨.desc, rfl⟩
  rw [horder] at hapart ⊢
  obtain ⟨byBlockchain, hbyBlockchain, hchains⟩ := exists_blockchainSources ⟨.price, d⟩ orders
  obtain ⟨byCurrency, hbyCurrency, hcoins⟩ := exists_currencySources ⟨.price, d⟩ hcurrencies
  have hbook := SortOrder.isBook_sort hapart
  refine ⟨_, byBlockchain, byCurrency, hbook, hbyBlockchain, hbyCurrency, ?_⟩
  rintro sources (rfl | rfl) config hconfig henabled
  · exact exists_gateway_drains (splits_groupByBlockchain orders) hchains hapart hids hbook
      hconfig henabled
  · exact exists_gateway_drains (splits_groupByCurrency orders) hcoins hapart hids hbook
      hconfig henabled

end Listing

namespace Sample

open Listing

def offer (id : String) (blockchain : Blockchain) (currency : String)
    (price : Option Decimal) : Order :=
  ⟨id, blockchain, "item", currency, none, price, (item id 0).lastUpdatedAt⟩

/-- Four offers, one of them without a price, and two of one price that is written in two
ways. -/
def offers : List Order :=
  [offer "1" .ethereum "ETH" none,
    offer "2" .tezos "XTZ" (some (.ofMagnitude false { mantissa := 150, scale := 2 })),
    offer "3" .ethereum "ETH" (some (.ofMagnitude false { mantissa := 15, scale := 1 })),
    offer "4" .ethereum "XTZ" (some (.ofMagnitude false { mantissa := 2, scale := 1 }))]

/-- Two offers in currencies that cannot be ids of sources. -/
def refused : List Order :=
  [offer "5" .ethereum "B;" none, offer "6" .tezos "A:" none]

theorem offers_drain :
    (∃ book, sellOrders.order.IsBook offers book ∧
      ∃ byBlockchain byCurrency wide narrow,
        blockchainSources sellOrders.order offers = .ok byBlockchain ∧
        currencySources sellOrders.order offers = .ok byCurrency ∧
        gatewayOf sellOrders.order {} byBlockchain = .ok wide ∧
        gatewayOf sellOrders.order {} byCurrency = .ok narrow ∧
        (wide.drain { size := some 3 }).run = .ok book ∧
        (narrow.drain { size := some 1 }).run = .ok book) ∧
    currencySources bids.order refused = .error (.invalidSourceId "A:") := by
  obtain ⟨book, byBlockchain, byCurrency, hbook, hchains, hcoins, hdrains⟩ :=
    (drains_one_book (Or.inl rfl) offers).1 (by decide) (by decide) (by decide)
  obtain ⟨wide, hwide, hconfig, hwidely⟩ :=
    hdrains byBlockchain (Or.inl rfl) {} (by decide) (fun _ _ => rfl)
  obtain ⟨narrow, hnarrow, hconfig', hnarrowly⟩ :=
    hdrains byCurrency (Or.inr rfl) {} (by decide) (fun _ _ => rfl)
  have hthree : wide.resolveSize (some 3) = .ok 3 := by
    rw [Gateway.resolveSize, hconfig]
    rfl
  have hone : narrow.resolveSize (some 1) = .ok 1 := by
    rw [Gateway.resolveSize, hconfig']
    rfl
  obtain ⟨first, hfirst, -, herror, hleast⟩ :=
    (drains_one_book (Or.inr rfl) refused).2 (by decide)
  have hcurrency : first.currency = "A:" := by
    have hle := hleast (offer "6" .tezos "A:" none) (by simp [refused]) (by decide)
    rcases List.mem_pair.1 hfirst with rfl | rfl
    · exact absurd hle (by decide)
    · rfl
  rw [hcurrency] at herror
  exact ⟨⟨book, hbook, byBlockchain, byCurrency, wide, narrow, hchains, hcoins, hwide, hnarrow,
    hwidely _ 3 hthree (by decide), hnarrowly _ 1 hone (by decide)⟩, herror⟩

end Sample

end MergedPaging
