/-
Finished sources.  Sources may behave differently at every request, and may be asked one after
another or at once.  Once a page has marked a source as finished, every later page of the run
does, no later page takes an entity from it, and how it would behave makes no difference to the
answers that any later request may get.
-/
import MergedPaging.Proofs.Concurrent
import MergedPaging.Proofs.Refusal

namespace MergedPaging

open Std

variable {α : Type}

/-- How sources behave at one request: what each of them answers to a continuation and a page
size. -/
abbrev Behaviour (α : Type) : Type :=
  String → Option String → Nat → Except SourceError (Page α)

/-- One request of a run: how the sources behave at it, the page size that it asks for and the
sources that it names. -/
structure Call (α : Type) where
  behaviour : Behaviour α
  size : Option Nat
  sources : List String

namespace Call

/-- The same request, at which one source may behave in another way. -/
structure SameBut (id : String) (call call' : Call α) : Prop where
  size : call'.size = call.size
  sources : call'.sources = call.sources
  behaviour : ∀ other, other ≠ id → call'.behaviour other = call.behaviour other

theorem SameBut.symm {id : String} {call call' : Call α} (h : call.SameBut id call') :
    call'.SameBut id call where
  size := h.size.symm
  sources := h.sources.symm
  behaviour other hother := (h.behaviour other hother).symm

/-- Entities that come from other sources than one: each was delivered at this request by a
source with another id. -/
def FromOthers (call : Call α) (id : String) (entities : List α) : Prop :=
  ∃ rows : List (String × α), entities = rows.map Prod.snd ∧ ∀ row ∈ rows, row.1 ≠ id ∧
    ∃ continuation n delivered,
      call.behaviour row.1 continuation n = .ok delivered ∧ row.2 ∈ delivered.entities

end Call

/-- Where a run stands: it asks from a continuation on, or it has ended. -/
inductive Turn where
  | ask (continuation : Option String)
  | ended

namespace Turn

/-- Where a run stands behind a reply.  Each page is followed with its continuation, until a page
has none or a request fails. -/
def behind : Except GatewayError (MergedPage α) → Turn
  | .error _ => ended
  | .ok page => page.page.continuation.elim ended fun next => ask (some next)

theorem behind_of_continuation {page : MergedPage α} {next : String}
    (h : page.page.continuation = some next) : behind (.ok page) = ask (some next) := by
  rw [behind, h]
  rfl

theorem behind_of_end {page : MergedPage α} (h : page.page.continuation = none) :
    behind (.ok page) = ended := by
  rw [behind, h]
  rfl

/-- A run that has a source behind it: the bookmark that it goes on from shows that source as
finished. -/
def Past (turn : Turn) (id : String) : Prop :=
  ∀ continuation, turn = ask continuation →
    ∃ b, Bookmark.parse continuation = .ok b ∧ b.state id = some .completed

end Turn

/-- The source under its id, with its behaviour given. -/
def Source.behaving (behaviour : Behaviour α) (s : Source Id α) : Source Id α where
  id := s.id
  fetch := behaviour s.id

namespace Merge

theorem mem_pool_iff {pages : List (SourcePage α)} {row : String × α} :
    row ∈ pool pages ↔ ∃ p ∈ pages, p.sourceId = row.1 ∧ row.2 ∈ p.supplied := by
  rw [pool, List.mem_flatMap]
  constructor
  · rintro ⟨p, hp, hrow⟩
    obtain ⟨entity, hentity, rfl⟩ := List.mem_map.1 hrow
    exact ⟨p, hp, rfl, hentity⟩
  · rintro ⟨p, hp, hid, hrow⟩
    exact ⟨p, hp, List.mem_map.2 ⟨row.2, hrow, by rw [hid]⟩⟩

end Merge

namespace Gateway

open Merge

/-- The gateway with the behaviour of its sources given. -/
def behaving (g : Gateway Id α) (behaviour : Behaviour α) : Gateway Id α where
  merge := g.merge
  config := g.config
  parallel := g.parallel
  sources :=
    { entries := g.sources.entries.map fun entry => (entry.1, entry.2.behaving behaviour)
      increasing := by simpa [List.pairwise_map] using g.sources.increasing }
  id_eq := by
    intro entry hentry
    obtain ⟨old, hold, rfl⟩ := List.mem_map.1 hentry
    exact g.id_eq old hold
  wireSafe := by
    intro entry hentry
    obtain ⟨old, hold, rfl⟩ := List.mem_map.1 hentry
    exact g.wireSafe old hold

/-- The plan with the behaviour of its sources given. -/
def Plan.behaving (behaviour : Behaviour α) (plan : Plan Id α) : Plan Id α :=
  { plan with participants := plan.participants.map (Source.behaving behaviour) }

section Behaving

variable {g : Gateway Id α} {behaviour : Behaviour α}

theorem lookup_behaving (id : String) (entries : List (String × Source Id α)) :
    SortedMap.lookup id (entries.map fun entry => (entry.1, entry.2.behaving behaviour)) =
      (SortedMap.lookup id entries).map (Source.behaving behaviour) := by
  induction entries with
  | nil => rfl
  | cons entry entries ih =>
      obtain ⟨key, source⟩ := entry
      rw [List.map_cons, SortedMap.lookup, SortedMap.lookup, ih]
      split <;> rfl

theorem source?_behaving (id : String) :
    (g.behaving behaviour).source? id = (g.source? id).map (Source.behaving behaviour) := by
  have hget : (g.behaving behaviour).sources.get? id =
      (g.sources.get? id).map (Source.behaving behaviour) :=
    lookup_behaving id g.sources.entries
  rw [source?, source?, hget, Option.filter_map]
  rfl

theorem available_behaving :
    (g.behaving behaviour).available = g.available.map (Source.behaving behaviour) := by
  have hvalues : (g.behaving behaviour).sources.values =
      g.sources.values.map (Source.behaving behaviour) := by
    change (g.sources.entries.map _).map _ = (g.sources.entries.map _).map _
    rw [List.map_map, List.map_map]
    rfl
  rw [available, available, hvalues, List.filter_map]
  rfl

/-- Which sources take part does not depend on how they behave. -/
theorem participants_behaving (ids : List String) :
    (g.behaving behaviour).participants ids =
      (g.participants ids).map (List.map (Source.behaving behaviour)) := by
  rw [participants, participants, available_behaving, List.filter_map]
  simp only [source?_behaving, Option.isNone_map]
  cases ids.find? fun id => (g.source? id).isNone <;> rfl

/-- Nor does anything else that is checked before a source is asked. -/
theorem plan_behaving (request : PageRequest) :
    (g.behaving behaviour).plan request = (g.plan request).map (Plan.behaving behaviour) := by
  have hsize : (g.behaving behaviour).resolveSize request.size = g.resolveSize request.size :=
    rfl
  have hread : (g.behaving behaviour).readBookmark request.continuation =
      g.readBookmark request.continuation := rfl
  rw [plan, plan, participants_behaving, hsize, hread]
  cases g.resolveSize request.size <;> cases g.readBookmark request.continuation <;>
    cases g.participants request.sources <;> rfl

/-- A source that is finished is not asked, so its behaviour makes no difference. -/
theorem fetchSource_behaving {b : Bookmark} {id : String} (hdone : b.state id = some .completed)
    {behaviour behaviour' : Behaviour α}
    (hsame : ∀ other, other ≠ id → behaviour' other = behaviour other) (n : Nat)
    (s : Source Id α) :
    g.fetchSource b n (s.behaving behaviour') = g.fetchSource b n (s.behaving behaviour) := by
  by_cases hs : s.id = id
  · have hstate : b.state s.id = some .completed := hs ▸ hdone
    rw [fetchSource_of_completed (s.behaving behaviour') hstate,
      fetchSource_of_completed (s.behaving behaviour) hstate]
    rfl
  · rw [Source.behaving, Source.behaving, hsame s.id hs]

/-- So all sources reply as they did, whatever a finished one would reply. -/
theorem replies_behaving {plan : Plan Id α} {id : String}
    (hdone : plan.bookmark.state id = some .completed) {behaviour behaviour' : Behaviour α}
    (hsame : ∀ other, other ≠ id → behaviour' other = behaviour other) :
    (g.behaving behaviour').replies (plan.behaving behaviour') =
      (g.behaving behaviour).replies (plan.behaving behaviour) := by
  rw [replies, replies, Plan.behaving, Plan.behaving, List.map_map, List.map_map]
  apply List.map_congr_left
  intro s _
  exact congrArg ExceptT.run (fetchSource_behaving hdone hsame plan.size s)

/-- The sources that take part, with the behaviour that is given. -/
theorem participants_of_plan {request : PageRequest} {sources : List (Source Id α)}
    (hsources : g.participants request.sources = .ok sources) {plan : Plan Id α}
    (hplan : (g.behaving behaviour).plan request = .ok plan) :
    plan.participants = sources.map (Source.behaving behaviour) := by
  have hall := (plan_eq_ok_iff.1 hplan).2.2
  rw [participants_behaving, hsources] at hall
  exact (Except.ok.inj hall).symm

end Behaving

variable [Sortable α]

/-- What a gateway may reply to one request of a run. -/
def MayReply (g : Gateway Id α) (continuation : Option String) (call : Call α)
    (reply : Except GatewayError (MergedPage α)) : Prop :=
  (g.behaving call.behaviour).MayAnswer ⟨continuation, call.size, call.sources⟩ reply

/-- All replies that a run may get, until it ends or makes no more requests. -/
inductive MayRun (g : Gateway Id α) :
    Turn → List (Call α) → List (Except GatewayError (MergedPage α)) → Prop
  | ended {calls : List (Call α)} : MayRun g .ended calls []
  | nil {continuation : Option String} : MayRun g (.ask continuation) [] []
  | ask {continuation : Option String} {call : Call α} {calls : List (Call α)}
      {reply : Except GatewayError (MergedPage α)}
      {replies : List (Except GatewayError (MergedPage α))}
      (hreply : g.MayReply continuation call reply)
      (hrest : MayRun g (.behind reply) calls replies) :
      MayRun g (.ask continuation) (call :: calls) (reply :: replies)

section Step

variable {g : Gateway Id α} {continuation : Option String} {call call' : Call α} {id : String}
  {page : MergedPage α} {reply : Except GatewayError (MergedPage α)}
  {sources : List (Source Id α)}

/-- A request from a bookmark on which a source is finished may get the same replies if that
source behaves in another way. -/
theorem MayReply.congr (hreply : g.MayReply continuation call reply)
    (hpast : (Turn.ask continuation).Past id) (hsame : call.SameBut id call') :
    g.MayReply continuation call' reply := by
  obtain ⟨b, hread, hdone⟩ := hpast continuation rfl
  rw [MayReply] at hreply
  rw [MayReply, hsame.size, hsame.sources]
  cases hplan : g.plan ⟨continuation, call.size, call.sources⟩ with
  | error error =>
      have hrefused (behaviour : Behaviour α) : (g.behaving behaviour).plan
          ⟨continuation, call.size, call.sources⟩ = .error error := by
        rw [plan_behaving, hplan]
        rfl
      rw [mayAnswer_iff_of_refused (hrefused _)] at hreply ⊢
      exact hreply
  | ok plan =>
      have hplanned (behaviour : Behaviour α) : (g.behaving behaviour).plan
          ⟨continuation, call.size, call.sources⟩ = .ok (plan.behaving behaviour) := by
        rw [plan_behaving, hplan]
        rfl
      have hbookmark := (readBookmark_eq_ok_iff.1 (plan_eq_ok_iff.1 hplan).2.1).1
      cases hread.symm.trans hbookmark
      rw [mayAnswer_iff_of_planned (hplanned _)] at hreply ⊢
      rw [replies_behaving hdone hsame.behaviour]
      exact hreply

/-- A source that is finished on a page took part in it. -/
theorem mem_ids_of_mayReply (hsources : g.participants call.sources = .ok sources)
    (hpage : g.MayReply continuation call (.ok page)) {state : Progress}
    (hstate : page.bookmark.state id = some state) : id ∈ sources.map (·.id) := by
  obtain ⟨plan, pages, hplan, hpages, rfl, -⟩ := fetch_eq_ok_iff.1 (mayAnswer_ok_iff.1 hpage)
  have hid := mem_ids_of_state hpages hstate
  rwa [participants_of_plan hsources hplan, List.map_map] at hid

/-- Behind a page on which a source is finished, a run has that source behind it: the page hands
out its bookmark. -/
theorem past_behind (hpage : g.MayReply continuation call (.ok page))
    (hdone : page.bookmark.state id = some .completed) : (Turn.behind (.ok page)).Past id := by
  intro start hstart
  cases hnext : page.page.continuation with
  | none =>
      rw [Turn.behind_of_end hnext] at hstart
      cases hstart
  | some next =>
      rw [Turn.behind_of_continuation hnext] at hstart
      cases hstart
      obtain ⟨_, -, -, hread⟩ := continuation_of_fetch_eq_ok (mayAnswer_ok_iff.1 hpage)
      exact ⟨page.bookmark, (hread next hnext).1, hdone⟩

/-- A source that was finished stays so on the next page, which takes nothing from it. -/
theorem finished_of_mayReply (hpast : (Turn.ask continuation).Past id)
    (hsources : g.participants call.sources = .ok sources) (hid : id ∈ sources.map (·.id))
    (hpage : g.MayReply continuation call (.ok page)) :
    page.bookmark.state id = some .completed ∧ call.FromOthers id page.page.entities := by
  obtain ⟨b, hread, hdone⟩ := hpast continuation rfl
  obtain ⟨plan, pages, hplan, hpages, rfl, -⟩ := fetch_eq_ok_iff.1 (mayAnswer_ok_iff.1 hpage)
  have hbookmark := (readBookmark_eq_ok_iff.1 (plan_eq_ok_iff.1 hplan).2.1).1
  cases hread.symm.trans hbookmark
  have hall := participants_of_plan hsources hplan
  constructor
  · obtain ⟨p, hp, rfl⟩ : ∃ p ∈ pages, p.sourceId = id := by
      rw [← List.mem_map, sourceIds_of_gather hpages, hall, List.map_map]
      exact hid
    obtain ⟨s, -, hanswered⟩ := exists_answered hpages hp
    have hrequested : p.requestedContinuation = some Progress.completedMark := by
      rw [hanswered.requested, ← hanswered.sourceId, hdone]
      rfl
    exact (settles_state (nodup_of_gather hplan hpages) hp plan.size).completed_iff.2
      (Or.inl hrequested)
  · refine ⟨g.merge.winners pages plan.size, rfl, ?_⟩
    intro row hrow
    rw [winners_eq] at hrow
    have hpool := (g.merge.inOrder_perm (pool pages)).subset (List.mem_of_mem_take hrow)
    obtain ⟨p, hp, hsource, hsupplied⟩ := mem_pool_iff.1 hpool
    obtain ⟨_, hs, hanswered⟩ := exists_answered hpages hp
    obtain ⟨s, -, rfl⟩ := List.mem_map.1 (hall ▸ hs)
    obtain ⟨hopen, delivered, hdelivered, hmem⟩ := hanswered.supplied row.2 hsupplied
    have hsame : row.1 = s.id := hsource.symm.trans hanswered.sourceId
    rw [hsame]
    refine ⟨?_, _, _, delivered, hdelivered, hmem⟩
    rintro rfl
    exact hopen hdone

/-- A source that was behind a run stays behind it. -/
theorem past_of_mayReply (hpast : (Turn.ask continuation).Past id)
    (hsources : g.participants call.sources = .ok sources) (hid : id ∈ sources.map (·.id))
    (hreply : g.MayReply continuation call reply) : (Turn.behind reply).Past id := by
  cases reply with
  | error error => nofun
  | ok page => exact past_behind hreply (finished_of_mayReply hpast hsources hid hreply).1

end Step

section Run

variable {g : Gateway Id α} {turn : Turn} {call : Call α} {calls calls' : List (Call α)}
  {page : MergedPage α} {replies replies' : List (Except GatewayError (MergedPage α))}
  {id : String} {sources : List (Source Id α)}

/-- Every run gets replies. -/
theorem exists_mayRun (g : Gateway Id α) (turn : Turn) (calls : List (Call α)) :
    ∃ replies, g.MayRun turn calls replies := by
  induction calls generalizing turn with
  | nil =>
      cases turn with
      | ask continuation => exact ⟨[], .nil⟩
      | ended => exact ⟨[], .ended⟩
  | cons call calls ih =>
      cases turn with
      | ask continuation =>
          have hreply : g.MayReply continuation call _ := mayAnswer_fetch _ _
          obtain ⟨replies, hrest⟩ := ih (.behind _)
          exact ⟨_ :: replies, .ask hreply hrest⟩
      | ended => exact ⟨[], .ended⟩

/-- If sources are asked one after another, a run gets no other replies. -/
theorem MayRun.unique (hrun : g.MayRun turn calls replies) (hturn : g.parallel = false)
    (hrun' : g.MayRun turn calls replies') : replies' = replies := by
  induction hrun generalizing replies' with
  | ended =>
      cases hrun'
      rfl
  | nil =>
      cases hrun'
      rfl
  | ask hreply _ ih =>
      obtain _ | _ | ⟨hreply', hrest'⟩ := hrun'
      have hfetch := (mayAnswer_iff_of_sequential (g := g.behaving _) hturn).1 hreply
      obtain rfl := hfetch.symm.trans
        ((mayAnswer_iff_of_sequential (g := g.behaving _) hturn).1 hreply')
      rw [ih hrest']

/-- On all pages of a run a source that is behind it is finished, and none of them takes anything
from it. -/
theorem MayRun.finished (hrun : g.MayRun turn calls replies) (hpast : turn.Past id)
    (hsources : ∀ call ∈ calls, g.participants call.sources = .ok sources)
    (hid : id ∈ sources.map (·.id)) {j : Nat} (hcall : calls[j]? = some call)
    (hpage : replies[j]? = some (.ok page)) :
    page.bookmark.state id = some .completed ∧ call.FromOthers id page.page.entities := by
  induction hrun generalizing j with
  | ended => cases hpage
  | nil => cases hpage
  | ask hreply _ ih =>
      have hfirst := hsources _ List.mem_cons_self
      cases j with
      | zero =>
          cases hcall
          cases hpage
          exact finished_of_mayReply hpast hfirst hid hreply
      | succ j =>
          exact ih (past_of_mayReply hpast hfirst hid hreply)
            (fun call hcall => hsources call (List.mem_cons_of_mem _ hcall)) hcall hpage

/-- Nor does its behaviour make a difference to the replies that a run may get. -/
theorem MayRun.congr (hrun : g.MayRun turn calls replies) (hpast : turn.Past id)
    (hsources : ∀ call ∈ calls, g.participants call.sources = .ok sources)
    (hid : id ∈ sources.map (·.id)) (hsame : List.Forall₂ (Call.SameBut id) calls calls') :
    g.MayRun turn calls' replies := by
  induction hrun generalizing calls' with
  | ended => exact .ended
  | nil =>
      cases hsame
      exact .nil
  | ask hreply _ ih =>
      obtain _ | ⟨hfirst, hothers⟩ := hsame
      have hpast' := past_of_mayReply hpast (hsources _ List.mem_cons_self) hid hreply
      exact .ask (hreply.congr hpast hfirst)
        (ih hpast' (fun call hcall => hsources call (List.mem_cons_of_mem _ hcall)) hothers)

theorem mayRun_congr_iff (hpast : turn.Past id)
    (hsources : ∀ call ∈ calls, g.participants call.sources = .ok sources)
    (hid : id ∈ sources.map (·.id)) (hsame : List.Forall₂ (Call.SameBut id) calls calls') :
    g.MayRun turn calls' replies ↔ g.MayRun turn calls replies := by
  constructor
  · intro hrun
    have hsources' : ∀ call ∈ calls', g.participants call.sources = .ok sources := by
      intro call' hcall'
      obtain ⟨call, hcall, hone⟩ := exists_of_forall₂ hsame hcall'
      rw [hone.sources]
      exact hsources call hcall
    exact hrun.congr hpast hsources' hid (hsame.imp fun _ _ hone => hone.symm).flip
  · intro hrun
    exact hrun.congr hpast hsources hid hsame

/-- Every reply of a run is one to its request, and behind it the run goes on. -/
theorem MayRun.drop (hrun : g.MayRun turn calls replies) {k : Nat}
    {reply : Except GatewayError (MergedPage α)} (hreply : replies[k]? = some reply) :
    ∃ start call, calls[k]? = some call ∧ g.MayReply start call reply ∧
      g.MayRun (.behind reply) (calls.drop (k + 1)) (replies.drop (k + 1)) := by
  induction hrun generalizing k with
  | ended => cases hreply
  | nil => cases hreply
  | ask hfirst hrest ih =>
      cases k with
      | zero =>
          cases hreply
          exact ⟨_, _, rfl, hfirst, hrest⟩
      | succ k => exact ih hreply

/-- A request that may get a page leads a run to that page. -/
theorem mayRun_ask_iff {continuation : Option String}
    (hpage : g.MayReply continuation call (.ok page)) :
    g.MayRun (.ask continuation) (call :: calls) replies ↔
      ∃ rest, replies = .ok page :: rest ∧ g.MayRun (.behind (.ok page)) calls rest := by
  constructor
  · rintro (_ | _ | ⟨hreply, hrest⟩)
    obtain rfl := hpage.eq_ok hreply
    exact ⟨_, rfl, hrest⟩
  · rintro ⟨rest, rfl, hrest⟩
    exact .ask hpage hrest

/-- A run that reaches a page reaches it in no other way, whatever follows. -/
theorem MayRun.take_append_iff (hrun : g.MayRun turn calls replies) {k : Nat}
    (hpage : replies[k]? = some (.ok page)) {after : List (Call α)} :
    g.MayRun turn (calls.take (k + 1) ++ after) replies' ↔
      ∃ rest, replies' = replies.take (k + 1) ++ rest ∧
        g.MayRun (.behind (.ok page)) after rest := by
  induction hrun generalizing k replies' with
  | ended => cases hpage
  | nil => cases hpage
  | @ask _ _ _ reply _ hreply hrest ih =>
      cases k with
      | zero =>
          cases hpage
          exact mayRun_ask_iff hreply
      | succ k =>
          cases reply with
          | error error =>
              cases hrest
              cases hpage
          | ok first =>
              rw [List.take_succ_cons, List.cons_append, mayRun_ask_iff hreply]
              constructor
              · rintro ⟨later, rfl, hlater⟩
                obtain ⟨rest, rfl, hrest'⟩ := (ih hpage).1 hlater
                exact ⟨rest, rfl, hrest'⟩
              · rintro ⟨rest, rfl, hrest'⟩
                exact ⟨_, rfl, (ih hpage).2 ⟨rest, rfl, hrest'⟩⟩

/-- In a run in which the same sources take part in every request, a source that is finished
on one page is finished on all later pages, which take nothing from it; and however it would
behave from then on, the run may get the same replies.  If sources are asked one after another,
it gets the ones that it got. -/
theorem finished_stays_finished {g : Gateway Id α} {sources : List (Source Id α)}
    {calls : List (Call α)}
    (hsources : ∀ call ∈ calls, g.participants call.sources = .ok sources)
    {continuation : Option String} {replies : List (Except GatewayError (MergedPage α))}
    (hrun : g.MayRun (.ask continuation) calls replies) {k : Nat} {page : MergedPage α}
    (hpage : replies[k]? = some (.ok page)) {id : String}
    (hdone : page.bookmark.state id = some .completed) :
    (∀ j, k < j → ∀ call later, calls[j]? = some call → replies[j]? = some (.ok later) →
      later.bookmark.state id = some .completed ∧ call.FromOthers id later.page.entities) ∧
    ∀ after, List.Forall₂ (Call.SameBut id) (calls.drop (k + 1)) after →
      (∀ replies', g.MayRun (.ask continuation) (calls.take (k + 1) ++ after) replies' ↔
        g.MayRun (.ask continuation) calls replies') ∧
      (g.parallel = false → ∀ replies',
        g.MayRun (.ask continuation) (calls.take (k + 1) ++ after) replies' ↔
          replies' = replies) := by
  obtain ⟨start, call, hcall, hreply, hlater⟩ := hrun.drop hpage
  have hid := mem_ids_of_mayReply (hsources call (List.mem_of_getElem? hcall)) hreply hdone
  have hpast : (Turn.behind (.ok page)).Past id := past_behind hreply hdone
  have hafter : ∀ call ∈ calls.drop (k + 1), g.participants call.sources = .ok sources :=
    fun call hcall => hsources call (List.mem_of_mem_drop hcall)
  constructor
  · intro j hj call later hcall hpage
    obtain ⟨i, rfl⟩ : ∃ i, j = k + 1 + i := ⟨j - (k + 1), by omega⟩
    rw [← List.getElem?_drop] at hcall hpage
    exact hlater.finished hpast hafter hid hcall hpage
  · intro after hsame
    -- The run reaches the page in one way only, and goes on from it as it does with `after`.
    have hruns (replies' : List (Except GatewayError (MergedPage α))) :
        g.MayRun (.ask continuation) (calls.take (k + 1) ++ after) replies' ↔
          g.MayRun (.ask continuation) calls replies' := by
      have hwhole : g.MayRun (.ask continuation) (calls.take (k + 1) ++ calls.drop (k + 1))
          replies' ↔ _ := hrun.take_append_iff hpage
      rw [List.take_append_drop] at hwhole
      rw [hwhole, hrun.take_append_iff hpage]
      apply exists_congr
      intro rest
      exact and_congr_right' (mayRun_congr_iff hpast hafter hid hsame)
    refine ⟨hruns, ?_⟩
    intro hturn replies'
    rw [hruns]
    constructor
    · exact hrun.unique hturn
    · rintro rfl
      exact hrun

end Run

end Gateway

namespace Sample

open Gateway

/-- A request for two items, at which the western source may be down. -/
def twoItems (down : Bool) : Call Item where
  behaviour id continuation n :=
    if id = "west" then
      if down then .error (.unavailable "down")
      else (west.fetch continuation n).mapError .continuation
    else (east.fetch continuation n).mapError .continuation
  size := some 2
  sources := []

/-- The first page holds the only item from the west, so it makes no difference whether that
source is down afterwards. -/
theorem west_stays_finished :
    ∃ first second, eastAndWest.MayRun (.ask none) [twoItems false, twoItems false]
        [.ok first, .ok second] ∧
      second.bookmark.state "west" = some .completed ∧
      (twoItems false).FromOthers "west" second.page.entities ∧
      (∀ replies, eastAndWest.MayRun (.ask none) [twoItems false, twoItems true] replies ↔
        eastAndWest.MayRun (.ask none) [twoItems false, twoItems false] replies) ∧
      ∀ replies, (eastAndWest.withParallelism false).MayRun (.ask none)
        [twoItems false, twoItems true] replies ↔ replies = [.ok first, .ok second] := by
  obtain ⟨first, hfirst, hdone, hnext⟩ : ∃ page,
      ((eastAndWest.behaving (twoItems false).behaviour).fetch ⟨none, some 2, []⟩).run =
          .ok page ∧
        page.bookmark.state "west" = some .completed ∧
          page.page.continuation = some "east:1000_1;west:COMPLETED" :=
    ⟨_, by cbv, by cbv, by cbv⟩
  obtain ⟨second, hsecond, hend⟩ : ∃ page,
      ((eastAndWest.behaving (twoItems false).behaviour).fetch
          ⟨some "east:1000_1;west:COMPLETED", some 2, []⟩).run = .ok page ∧
        page.page.continuation = none :=
    ⟨_, by cbv, by cbv⟩
  have hrun (parallel : Bool) : (eastAndWest.withParallelism parallel).MayRun (.ask none)
      [twoItems false, twoItems false] [.ok first, .ok second] := by
    refine .ask (mayAnswer_ok_iff.2 hfirst) ?_
    rw [Turn.behind_of_continuation hnext]
    refine .ask (mayAnswer_ok_iff.2 hsecond) ?_
    rw [Turn.behind_of_end hend]
    exact .ended
  have hsources (parallel : Bool) : ∀ call ∈ [twoItems false, twoItems false],
      (eastAndWest.withParallelism parallel).participants call.sources =
        .ok [east.toSource, west.toSource] := by
    intro call hcall
    obtain rfl : call = twoItems false := by simpa using hcall
    rfl
  have hdown : (twoItems false).SameBut "west" (twoItems true) := by
    refine ⟨rfl, rfl, ?_⟩
    intro other hother
    simp [twoItems, hother]
  have hafter : List.Forall₂ (Call.SameBut "west") [twoItems false] [twoItems true] :=
    .cons hdown .nil
  obtain ⟨hstays, hsame⟩ := finished_stays_finished (k := 0) (hsources true) (hrun true) rfl hdone
  obtain ⟨hwest, hothers⟩ := hstays 1 Nat.zero_lt_one (twoItems false) second rfl rfl
  obtain ⟨-, hsame'⟩ :=
    finished_stays_finished (k := 0) (hsources false) (hrun false) rfl hdone
  exact ⟨first, second, hrun true, hwest, hothers, (hsame _ hafter).1,
    (hsame' _ hafter).2 rfl⟩

end Sample

end MergedPaging
