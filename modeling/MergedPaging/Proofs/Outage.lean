/-
Static sources that may be down.  A gateway that takes a failing source for empty asks
it again later, from where it stood.  However the failures fall and whatever the page
sizes are, what has been delivered of a source is always a first part of its rows, and
the bookmark says how long that part is.
-/
import MergedPaging.Proofs.Request

namespace MergedPaging

open Std

/-- How a source that is down answers. -/
inductive Failure where
  | unavailable (message : String)
  | rejected (message : String)
  deriving DecidableEq

def Failure.toError : Failure → SourceError
  | unavailable message => .unavailable message
  | rejected message => .rejected message

/-- Which sources are down during one request, and how they fail. -/
abbrev Outage := String → Option Failure

/-- The sources that are down. -/
def Outage.down (outage : Outage) (id : String) : Bool :=
  (outage id).isSome

variable {α : Type} [Sortable α]

namespace StaticSource

/-- A fixed collection as a backend that may be down. -/
def toFlaky (s : StaticSource α) : Source (ReaderM Outage) α where
  id := s.id
  fetch continuation size outage :=
    match outage s.id with
    | some failure => .error failure.toError
    | none => (s.fetch continuation size).mapError .continuation

theorem fetch_toFlaky_of_some {s : StaticSource α} {outage : Outage} {failure : Failure}
    (h : outage s.id = some failure) (continuation : Option String) (n : Nat) :
    (s.toFlaky.fetch continuation n).run outage = .error failure.toError := by
  change (match outage s.id with
    | some failure => _
    | none => _) = _
  rw [h]

theorem fetch_toFlaky_of_none {s : StaticSource α} {outage : Outage}
    (h : outage s.id = none) (continuation : Option String) (n : Nat) :
    (s.toFlaky.fetch continuation n).run outage =
      (s.fetch continuation n).mapError .continuation := by
  change (match outage s.id with
    | some failure => _
    | none => _) = _
  rw [h]

/-- Progress that stands for `k` delivered rows: an untouched source has delivered none,
a finished one all, and any other some but not all, the last of which its cursor names. -/
def StandsAt (s : StaticSource α) (k : Nat) : Option Progress → Prop
  | none => k = 0
  | some .completed => k = s.entities.length
  | some (.active text) => 0 < k ∧ k < s.entities.length ∧
      (s.entities[k - 1]?).map s.order.continuationOf = some text

/-- The rows that have been delivered are the first ones of the source, as many as its
progress stands for. -/
def Reached (s : StaticSource α) (taken : List α) (state : Option Progress) : Prop :=
  ∃ k ≤ s.entities.length, taken = s.entities.take k ∧ s.StandsAt k state

variable {s : StaticSource α} {taken : List α} {state : Option Progress}

theorem reached_nil (s : StaticSource α) : s.Reached [] none :=
  ⟨0, Nat.zero_le _, rfl, rfl⟩

/-- What has not been delivered is pending. -/
theorem Reached.pending_eq (hrows : s.entities.Pairwise fun a b => s.order.compare a b ≠ .eq)
    (htext : ∀ row ∈ s.entities, s.order.Carries row) (h : s.Reached taken state) :
    s.pending state = s.entities.drop taken.length := by
  obtain ⟨k, hk, rfl, hstate⟩ := h
  rw [List.length_take, Nat.min_eq_left hk]
  match state with
  | none =>
      obtain rfl : k = 0 := hstate
      rfl
  | some .completed =>
      obtain rfl : k = s.entities.length := hstate
      rw [List.drop_length]
      rfl
  | some (.active text) =>
      obtain ⟨hpos, hlt, hcursor⟩ := hstate
      obtain ⟨row, hrow, rfl⟩ := Option.map_eq_some_iff.1 hcursor
      obtain ⟨cursor, hparse, hcompare⟩ := (htext row (List.mem_of_getElem? hrow)).restores
      have hsplit : s.entities = s.entities.take (k - 1) ++ row :: s.entities.drop k := by
        obtain ⟨hk', rfl⟩ := List.getElem?_eq_some_iff.1 hrow
        have hdrop := List.drop_eq_getElem_cons hk'
        rw [Nat.sub_add_cancel hpos] at hdrop
        rw [← hdrop, List.take_append_drop]
      exact pending_active hrows hsplit hparse hcompare

omit [Sortable α] in
/-- The last of the rows that follow on the first `k`, by its place. -/
theorem getElem?_of_getLast? {rows won : List α} {k : Nat}
    (hjoin : rows.take k ++ won = rows.take (k + won.length))
    (hfit : k + won.length ≤ rows.length) {last : α} (hlast : won.getLast? = some last) :
    rows[k + won.length - 1]? = some last := by
  have hpos : 0 < won.length := List.length_pos_of_mem (List.mem_of_getLast? hlast)
  have hend := congrArg List.getLast? hjoin
  rw [List.getLast?_append, hlast, Option.some_or, List.getLast?_take, if_neg (by omega),
    List.getElem?_eq_getElem (by omega), Option.some_or] at hend
  rw [List.getElem?_eq_getElem (by omega), ← hend]

/-- A round takes a source from one first part of its rows to another. -/
theorem Reached.next (hrows : s.entities.Pairwise fun a b => s.order.compare a b ≠ .eq)
    (htext : ∀ row ∈ s.entities, s.order.Carries row) (h : s.Reached taken state)
    {down : Bool} {won : List α} (hwon : won = (s.offered state down).take won.length) :
    s.Reached (taken ++ won) (s.next state down won) := by
  have hpending := h.pending_eq hrows htext
  cases down with
  | true =>
      obtain rfl : won = [] := by
        rw [hwon]
        exact List.take_nil
      rw [List.append_nil]
      exact h
  | false =>
      obtain ⟨k, hk, rfl, hstate⟩ := h
      rw [List.length_take, Nat.min_eq_left hk] at hpending
      replace hwon : won = (s.entities.drop k).take won.length := hpending ▸ hwon
      have hjoin : s.entities.take k ++ won = s.entities.take (k + won.length) := by
        rw [List.take_add, ← hwon]
      have hfit : k + won.length ≤ s.entities.length := by
        have hlength := congrArg List.length hwon
        rw [List.length_take, List.length_drop] at hlength
        omega
      refine ⟨k + won.length, hfit, hjoin, ?_⟩
      rw [StaticSource.next, hpending, List.length_drop]
      split
      · rename_i hlast
        rw [List.getLast?_eq_none_iff.1 hlast, List.length_nil, Nat.add_zero]
        split
        · rename_i hdone
          exact Nat.le_antisymm hk (List.drop_eq_nil_iff.1 hdone.2)
        · exact hstate
      · rename_i last hlast
        have hpos : 0 < won.length := List.length_pos_of_mem (List.mem_of_getLast? hlast)
        split
        · rename_i hall
          change k + won.length = s.entities.length
          omega
        · rename_i hleft
          refine ⟨by omega, by omega, ?_⟩
          rw [getElem?_of_getLast? hjoin hfit hlast, Option.map_some]

end StaticSource

/-- One request of a run: which sources are down during it, the page size that it asks
for and the sources that it names. -/
structure Visit where
  outage : Outage
  size : Option Nat
  sources : List String

namespace Gateway

open Merge

/-- The pages of a run: the continuation of every page is fed back with the next
request, until there is none. -/
def session (g : Gateway (ReaderM Outage) α) (continuation : Option String) :
    List Visit → Except GatewayError (List (MergedPage α))
  | [] => .ok []
  | visit :: visits => do
    let page ← (g.fetch ⟨continuation, visit.size, visit.sources⟩).run.run visit.outage
    match page.page.continuation with
    | none => return [page]
    | some next =>
      let rest ← g.session (some next) visits
      return page :: rest

/-- Asking all of a list in one outage, when each answers. -/
theorem run_mapM {ρ ε β γ : Type} {f : β → ExceptT ε (ReaderM ρ) γ} {answer : β → γ} {r : ρ}
    {items : List β} (heq : ∀ x ∈ items, (f x).run.run r = .ok (answer x)) :
    (items.mapM f).run.run r = .ok (items.map answer) := by
  induction items with
  | nil => rfl
  | cons x items ih =>
      have hrest := ih fun y hy => heq y (List.mem_cons_of_mem _ hy)
      have hx := heq x List.mem_cons_self
      rw [List.mapM_cons]
      change (ExceptT.bindCont _ ((f x).run.run r) : ReaderM ρ _).run r = _
      rw [hx]
      change (ExceptT.bindCont _ ((items.mapM f).run.run r) : ReaderM ρ _).run r = _
      rw [hrest]
      rfl

variable {g : Gateway (ReaderM Outage) α} {b : Bookmark} {n : Nat}

omit [Sortable α] in
/-- A failure is taken for a page with nothing on it that is not the last. -/
theorem interpret_failure (id : String) (requested : Option String) (failure : Failure) :
    interpret (α := α) .skipAsEmpty id requested (.error failure.toError) =
      .ok ⟨id, requested, ⟨some (requested.getD ""), []⟩⟩ := by
  cases failure <;> rfl

theorem run_fetchSource_toFlaky (hpolicy : g.config.failurePolicy = .skipAsEmpty)
    {s : StaticSource α} (horder : s.order = g.merge.sourceOrder)
    (hcursor : cursorError? g.merge.sourceOrder b = none) (n : Nat) (outage : Outage) :
    (g.fetchSource b n s.toFlaky).run.run outage =
      .ok (s.answer (b.state s.id) n (outage.down s.id)) := by
  by_cases hopen : b.state s.id = some .completed
  · rw [fetchSource_of_completed s.toFlaky hopen, StaticSource.answer, if_pos hopen]
    rfl
  · obtain ⟨cursor, hread⟩ := exists_parseCursor (horder ▸ hcursor) hopen
    have hfetch := StaticSource.fetch_eq_ofBatch hopen hread n
    rw [fetchSource_of_open s.toFlaky hopen, hpolicy, StaticSource.answer,
      if_neg hopen]
    change interpret .skipAsEmpty s.id _ ((s.toFlaky.fetch _ n).run outage) = _
    cases houtage : outage s.id with
    | some failure =>
        rw [StaticSource.fetch_toFlaky_of_some houtage, interpret_failure, Outage.down, houtage]
        rfl
    | none =>
        rw [StaticSource.fetch_toFlaky_of_none houtage]
        change interpret .skipAsEmpty s.id _
          ((s.fetch ((b.state s.id).map Progress.toRequested) n).mapError _) = _
        rw [hfetch, Outage.down, houtage]
        rfl

/-- A planned request is answered by a round in which the sources that are down fail. -/
theorem run_fetch_toFlaky (hpolicy : g.config.failurePolicy = .skipAsEmpty)
    {backends : List (StaticSource α)} {request : PageRequest}
    (hplan : g.plan request = .ok ⟨n, b, backends.map StaticSource.toFlaky⟩)
    (horder : ∀ s ∈ backends, s.order = g.merge.sourceOrder) (outage : Outage)
    (hsafe : (g.merge.round backends b n outage.down).bookmark.isWireSafe = true) :
    (g.fetch request).run.run outage = .ok (g.merge.round backends b n outage.down) := by
  have hpages : ((backends.map StaticSource.toFlaky).mapM (g.fetchSource b n)).run.run outage =
      .ok (answers backends b n outage.down) := by
    rw [List.mapM_map]
    exact run_mapM fun s hs =>
      run_fetchSource_toFlaky hpolicy (horder s hs) (cursorError?_of_plan hplan) n outage
  rw [fetch, hplan]
  change (ExceptT.bindCont _ (((backends.map StaticSource.toFlaky).mapM
    (g.fetchSource b n)).run.run outage) : ReaderM Outage _).run outage = _
  rw [hpages]
  exact mergePages_of_isWireSafe hsafe

/-- A round takes every source on from what has been delivered before. -/
theorem reached_round {m : Merge} {backends : List (StaticSource α)} (hserves : m.Serves backends)
    (htext : ∀ s ∈ backends, ∀ row ∈ s.entities, s.order.Carries row)
    (hb : b.isWireSafe = true) (hn : 1 ≤ n) (down : String → Bool) {rows : List (String × α)}
    (hreached : ∀ s ∈ backends, s.Reached (won rows s.id) (b.state s.id)) :
    ∀ s ∈ backends, s.Reached
      (won (rows ++ (m.inOrder (offers backends b down)).take n) s.id)
      ((m.round backends b n down).bookmark.state s.id) := by
  intro s hs
  rw [won_append, hserves.state_round_of_keepsPlace hb hn hs
    (hserves.keepsPlace_of_carries htext hs)]
  exact (hreached s hs).next (hserves.pairwise_ne hs) (htext s hs)
    (hserves.taken_eq_take hs b down n)

/-- What a run has delivered, each row with the id of its source, and where its last page
leaves off.  The run is over exactly when every source is finished; then all rows have
been delivered. -/
structure Delivered (backends : List (StaticSource α)) (rows : List (String × α))
    (last : MergedPage α) : Prop where
  known : ∀ row ∈ rows, row.1 ∈ backends.map (·.id)
  reached : ∀ s ∈ backends, s.Reached (won rows s.id) (last.bookmark.state s.id)
  over_iff : last.page.continuation = none ↔
    ∀ s ∈ backends, last.bookmark.state s.id = some .completed
  complete : last.page.continuation = none → ∀ s ∈ backends, won rows s.id = s.entities
  resumes : ∀ text, last.page.continuation = some text →
    Bookmark.parse (some text) = .ok last.bookmark

theorem delivered_round {m : Merge} {backends : List (StaticSource α)} (hserves : m.Serves backends)
    (htext : ∀ s ∈ backends, ∀ row ∈ s.entities, s.order.Carries row)
    (hb : b.isWireSafe = true) (hn : 1 ≤ n) (down : String → Bool) {rows : List (String × α)}
    (hknown : ∀ row ∈ rows, row.1 ∈ backends.map (·.id))
    (hreached : ∀ s ∈ backends, s.Reached (won rows s.id) (b.state s.id)) :
    Delivered backends (rows ++ (m.inOrder (offers backends b down)).take n)
      (m.round backends b n down) := by
  have hreached' := reached_round hserves htext hb hn down hreached
  have hover : (m.round backends b n down).page.continuation = none ↔
      ∀ s ∈ backends, (m.round backends b n down).bookmark.state s.id = some .completed := by
    rw [continuation_round, ite_eq_left_iff]
    simp [Bookmark.allCompleted, Bookmark.isCompleted]
  refine ⟨?_, hreached', hover, ?_, ?_⟩
  · intro row hrow
    rcases List.mem_append.1 hrow with hold | hnew
    · exact hknown row hold
    · have hoffer := (inOrder_perm m _).subset (List.mem_of_mem_take hnew)
      obtain ⟨s, hs, hmem⟩ := List.mem_flatMap.1 hoffer
      obtain ⟨row, -, rfl⟩ := List.mem_map.1 hmem
      exact List.mem_map_of_mem hs
  · intro hnone s hs
    obtain ⟨k, -, htaken, hstate⟩ := hreached' s hs
    rw [hover.1 hnone s hs] at hstate
    obtain rfl : k = s.entities.length := hstate
    rw [htaken, List.take_length]
  · intro text hnext
    rw [continuation_round] at hnext
    split at hnext
    · cases hnext
    · cases hnext
      exact Bookmark.parse_toString (hserves.isWireSafe_round hb hn down htext)

theorem session_cons {continuation : Option String} {visit : Visit} {page : MergedPage α}
    (hpage : (g.fetch ⟨continuation, visit.size, visit.sources⟩).run.run visit.outage = .ok page)
    (visits : List Visit) :
    g.session continuation (visit :: visits) =
      match page.page.continuation with
      | none => .ok [page]
      | some next => (g.session (some next) visits).map (page :: ·) := by
  rw [session, hpage]
  change (match page.page.continuation with
    | none => _
    | some next => _) = _
  cases page.page.continuation with
  | none => rfl
  | some next => cases g.session (some next) visits <;> rfl

theorem session_from (hconfig : g.config.check = .ok ())
    (hpolicy : g.config.failurePolicy = .skipAsEmpty) {backends : List (StaticSource α)}
    (hserves : g.merge.Serves backends)
    (htext : ∀ s ∈ backends, ∀ row ∈ s.entities, s.order.Carries row)
    {visits : List Visit} (hvisits : visits ≠ [])
    (hsources : ∀ visit ∈ visits,
      g.participants visit.sources = .ok (backends.map StaticSource.toFlaky))
    (hsizes : ∀ visit ∈ visits, ∀ k, visit.size = some k → k ≤ g.config.paging.maxSize)
    {continuation : Option String} (hread : g.readBookmark continuation = .ok b)
    {before : List (String × α)} (hknown : ∀ row ∈ before, row.1 ∈ backends.map (·.id))
    (hreached : ∀ s ∈ backends, s.Reached (won before s.id) (b.state s.id)) :
    ∃ front last rows, g.session continuation visits = .ok (front ++ [last]) ∧
      rows.map Prod.snd = (front ++ [last]).flatMap (·.page.entities) ∧
        Delivered backends (before ++ rows) last := by
  induction visits generalizing continuation b before with
  | nil => exact absurd rfl hvisits
  | cons visit visits ih =>
      obtain ⟨n, hn, hplan⟩ := exists_plan hconfig (hsources visit List.mem_cons_self) hread
        (hsizes visit List.mem_cons_self)
      have hb : b.isWireSafe = true := isWireSafe_of_plan hplan
      have hsafe := hserves.isWireSafe_round hb hn visit.outage.down htext
      have hfetch := run_fetch_toFlaky hpolicy hplan hserves.order visit.outage hsafe
      have hentities := hserves.entities_round hb hn visit.outage.down
      have hround := delivered_round hserves htext hb hn visit.outage.down hknown hreached
      have hcursor := cursorError?_round hserves.toAligned hb (cursorError?_of_plan hplan) hn
        visit.outage.down fun s hs row hrow => (htext s hs row hrow).restores
      rw [session_cons hfetch]
      generalize g.merge.round backends b n visit.outage.down = page at *
      generalize (g.merge.inOrder (offers backends b visit.outage.down)).take n = rows at *
      have hfirst : rows.map Prod.snd =
          ([] ++ [page]).flatMap fun page : MergedPage α => page.page.entities := by
        simp only [List.nil_append, List.flatMap_cons, List.flatMap_nil, List.append_nil, hentities]
      cases hnext : page.page.continuation with
      | none => exact ⟨[], page, rows, rfl, hfirst, hround⟩
      | some text =>
          by_cases hend : visits = []
          · exact ⟨[], page, rows, by rw [hend]; rfl, hfirst, hround⟩
          · have hread' := readBookmark_eq_ok_iff.2 ⟨hround.resumes text hnext, hcursor⟩
            obtain ⟨front, last, rest, hsession, hrest, hdelivered⟩ := ih hend
              (fun later hlater => hsources later (List.mem_cons_of_mem _ hlater))
              (fun later hlater => hsizes later (List.mem_cons_of_mem _ hlater)) hread'
              hround.known hround.reached
            refine ⟨page :: front, last, rows ++ rest, ?_, ?_, ?_⟩
            · simp [hsession, Except.map]
            · rw [List.map_append, hrest, ← hentities]
              rfl
            · rw [← List.append_assoc]
              exact hdelivered

/-- A run that starts afresh never fails, never loses a row and never repeats one, no
matter which sources are down at which request and which sizes are asked for. -/
theorem session_delivered (hconfig : g.config.check = .ok ())
    (hpolicy : g.config.failurePolicy = .skipAsEmpty) {backends : List (StaticSource α)}
    (horder : ∀ s ∈ backends, s.order = g.merge.sourceOrder)
    (hrows : ∀ s ∈ backends, s.entities.Pairwise g.merge.Separates)
    (htext : ∀ s ∈ backends, ∀ row ∈ s.entities, s.order.Carries row)
    {visits : List Visit} (hvisits : visits ≠ [])
    (hsources : ∀ visit ∈ visits,
      g.participants visit.sources = .ok (backends.map StaticSource.toFlaky))
    (hsizes : ∀ visit ∈ visits, ∀ k, visit.size = some k → k ≤ g.config.paging.maxSize) :
    ∃ front last rows, g.session none visits = .ok (front ++ [last]) ∧
      rows.map Prod.snd = (front ++ [last]).flatMap (·.page.entities) ∧
        Delivered backends rows last := by
  obtain ⟨visit, hvisit⟩ := List.exists_mem_of_ne_nil visits hvisits
  have hserves := serves_of_participants (fun _ => rfl) (hsources visit hvisit) horder hrows
  have hread : g.readBookmark none = .ok .empty := readBookmark_eq_ok_iff.2 ⟨rfl, rfl⟩
  have hnone : ∀ row ∈ ([] : List (String × α)), row.1 ∈ backends.map (·.id) := nofun
  exact session_from hconfig hpolicy hserves htext hvisits hsources hsizes
    hread hnone fun s _ => s.reached_nil

end Gateway

namespace Sample

/-- One source is down at first. -/
def visits : List Visit :=
  [⟨fun id => if id = "east" then some (.unavailable "timeout") else none, some 1, []⟩,
    ⟨fun _ => none, none, ["west", "east"]⟩]

open Gateway in
theorem session_visits :
    ∃ front last rows,
      (gateway byTime .skipAsEmpty east.toFlaky west.toFlaky).session none visits =
          .ok (front ++ [last]) ∧
        rows.map Prod.snd = (front ++ [last]).flatMap (·.page.entities) ∧
          Delivered [east, west] rows last := by
  have hsources : ∀ visit ∈ visits, (gateway byTime .skipAsEmpty east.toFlaky
      west.toFlaky).participants visit.sources = .ok ([east, west].map StaticSource.toFlaky) := by
    rw [visits, List.forall_mem_cons, List.forall_mem_singleton]
    exact ⟨by rfl, by rfl⟩
  exact session_delivered (by rfl) rfl (by decide) (by decide) (by decide) (by simp [visits])
    hsources (by simp [visits, gateway])

end Sample

end MergedPaging
