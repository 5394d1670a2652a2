import BlobVault.Proofs.Gc.Exact
import BlobVault.Proofs.KeyOrder
import BlobVault.Proofs.Pages
import BlobVault.Proofs.WriteOnce

/-!
# Scrolls that are read while stores are in use

Many scrolls may be open at once, over any stores, and between their calls anything may be done
through any store. A scroll hands out one listing, page by page: a memory store is listed when the
scroll is opened, a remote store at the first call of the scroll. Everything else follows from what
the listing of a store is at one moment, and from what cannot become of a blob between two moments.

1. `World.Matches`: worlds that no store can tell apart, and `Store.step_matches`.
2. `Readers`: a world and the scrolls that are open in it, and what can happen.
3. `Readers.answers_filter`: what becomes of other scrolls is no concern of a scroll.
4. `Readers.answers_snapshot`: the answers of a scroll are those of a pager over one listing.
5. `Pager.handsOut`: what a pager over such a listing hands out.
6. `PlainStore.scrolled_under_mutation`: all of it together.
-/

namespace BlobVault

open Std (ExtTreeMap)

/-! ## Worlds that no store can tell apart -/

namespace World

/-- The worlds have the same containers, by name, and everything else in common. -/
structure Matches (w v : World) : Prop where
  containers : ∀ name, v.container name = w.container name
  rest : v = { w with containers := v.containers }

namespace Matches

variable {w v u : World}

theorem refl (w : World) : w.Matches w := ⟨fun _ => rfl, rfl⟩

theorem symm (h : w.Matches v) : v.Matches w := by
  refine ⟨fun name => (h.containers name).symm, ?_⟩
  rw [h.rest]

theorem trans (h : w.Matches v) (h' : v.Matches u) : w.Matches u := by
  refine ⟨fun name => (h'.containers name).trans (h.containers name), ?_⟩
  rw [h'.rest, h.rest]

/-- Where no fault strikes, looking changes nothing. -/
theorem of_looks (h : w.Looks v) (hw : w.Quiet) : w.Matches v :=
  ⟨fun name => (h.containers name).eq_of_quiet (hw name), h.rest⟩

theorem quiet (h : w.Matches v) (hw : w.Quiet) : v.Quiet := by
  intro name
  rw [h.containers]
  exact hw name

theorem memory (h : w.Matches v) (name : String) : v.memory name = w.memory name := by
  rw [h.rest]
  rfl

theorem setContainer (h : w.Matches v) (name : String) (c : Container) :
    (w.setContainer name c).Matches (v.setContainer name c) := by
  refine ⟨fun other => ?_, ?_⟩
  · by_cases hname : name = other
    · rw [← hname, container_setContainer_self, container_setContainer_self]
    · rw [container_setContainer_of_ne _ hname, container_setContainer_of_ne _ hname]
      exact h.containers other
  · unfold World.setContainer
    rw [h.rest]

/-- Quiet worlds that match stay so whatever is done in both. -/
theorem related : Related (fun _ => True) fun w v => w.Matches v ∧ w.Quiet where
  container h name := h.1.containers name
  memories h := by rw [h.1.rest]
  caches h _ _ := by rw [h.1.rest]
  scratch h := by rw [h.1.rest]
  files h := by rw [h.1.rest]
  now h := by rw [h.1.rest]
  setContainer h name c hc :=
    ⟨h.1.setContainer name c, h.2.setContainer (hc.quiet (h.2 name)) name⟩
  setMemory h name blobs := ⟨⟨h.1.containers, by rw [h.1.rest]; rfl⟩, h.2⟩
  setCache h dir d e _ _ _ := ⟨⟨h.1.containers, by rw [h.1.rest]; rfl⟩, h.2⟩
  setScratch h name files := ⟨⟨h.1.containers, by rw [h.1.rest]⟩, h.2⟩
  setFiles h files := ⟨⟨h.1.containers, by rw [h.1.rest]⟩, h.2⟩
  setNow h now := ⟨⟨h.1.containers, by rw [h.1.rest]⟩, h.2⟩

end Matches

end World

/-- A step in quiet worlds that match leads to quiet worlds that match. -/
theorem Store.step_matches (store : Store) {w v : World} (h : w.Matches v) (hw : w.Quiet)
    (s : Step) : (store.step w s).after.Matches (store.step v s).after ∧
      (store.step w s).after.Quiet := by
  have hA := World.Matches.related
  unfold Store.step
  dsimp only
  rcases Lockstep.perform hA store s.operation _ _ (hA.setNow ⟨h, hw⟩ s.time) with
    ⟨a, x, y, hx, hy, hafter, -⟩ | ⟨e, x, y, hx, hy, hafter, -⟩
  · rw [hx, hy]
    exact hafter
  · rw [hx, hy]
    exact hafter

/-- A step fills free places and then empties places. -/
theorem Store.step_fillsThenDrops (store : Store) {w : World} (hw : w.TellsHeads) (s : Step) :
    w.FillsThenDrops (store.step w s).after := by
  have hnow : w.Keeps { w with now := s.time } := World.keeps_of_objects (fun _ => rfl) rfl
  have hspec := store.perform_changes s.operation { w with now := s.time }
  have hchanges : ∀ v, World.Guarded s.operation.Changes { w with now := s.time } v →
      w.FillsThenDrops v := by
    intro v hv
    have hevent : (Event.operation store s.operation).Changes { w with now := s.time } v :=
      (hv hw).2
    obtain ⟨u, hfills, hdrops⟩ := hevent.fillsThenDrops
    exact ⟨u, hnow.fills.trans hfills, hdrops⟩
  rcases Store.step_spec hspec with ⟨a, -, hv⟩ | ⟨e, -, hv⟩
  · exact hchanges _ hv
  · exact hchanges _ hv

/-! ## One call -/

theorem RemoteStore.listed_of_matches {w v : World} (h : w.Matches v) (r : RemoteStore) :
    r.listed v = r.listed w := by
  unfold listed
  rw [h.containers]

namespace Scroll

/-- The listing that lies ahead of a scroll, if no fault strikes. -/
def ahead (s : Scroll) (w : World) : List ListingItem :=
  match s.source with
  | .taken items => items
  | .untaken r => (r.listed w).map .ok

/-- Where no fault strikes, a call takes the listing, if it was not before, and goes by its
pager. -/
theorem call_quiet {w : World} (hw : w.Quiet) (s : Scroll) (c : ScrollCall) :
    ∃ v, s.call w c = ((((⟨s.batchSize, s.ahead w⟩ : Pager).call c).1.ofScroll,
        ⟨s.id, s.batchSize, .taken ((⟨s.batchSize, s.ahead w⟩ : Pager).call c).2.rest⟩), v) ∧
      w.Looks v := by
  obtain ⟨id, size, source⟩ := s
  cases source with
  | taken items => exact ⟨w, call_ofScroll items c, .refl w⟩
  | untaken r =>
    obtain ⟨v, hlist, hlooks⟩ := RemoteStore.list_run (hw r.container)
    refine ⟨v, ?_, hlooks⟩
    rw [call_untaken hlist]
    exact call_ofScroll _ c

theorem ahead_of_matches {w v : World} (h : w.Matches v) (s : Scroll) : s.ahead v = s.ahead w := by
  obtain ⟨id, size, source⟩ := s
  cases source with
  | taken items => rfl
  | untaken r => exact congrArg (List.map Except.ok) (r.listed_of_matches h)

end Scroll

theorem PlainStore.scroll_of_matches {w v : World} (h : w.Matches v) (p : PlainStore)
    (batchSize : Nat) : p.scroll v batchSize = p.scroll w batchSize := by
  cases p with
  | remote r => rfl
  | memory m =>
    show Scroll.ofListing _ (m.items v) batchSize = Scroll.ofListing _ (m.items w) batchSize
    unfold MemoryStore.items MemoryStore.blobs
    rw [h.memory]

/-! ## Scrolls that are open -/

/-- A world, and the scrolls that are open in it by the numbers of their readers. -/
structure Readers where
  world : World
  scrolls : Nat → Scroll

/-- What can happen while scrolls are open: a step of some store, a scroll that is opened over a
store, or a call of a scroll. -/
inductive ReadersEvent
  | step (store : Store) (s : Step)
  | opened (reader : Nat) (p : PlainStore) (batchSize : Nat)
  | call (reader : Nat) (c : ScrollCall)

namespace ReadersEvent

/-- The event is a call of the reader's scroll. -/
def isCall (i : Nat) : ReadersEvent → Bool
  | call j _ => i == j
  | _ => false

/-- The event opens a scroll for the reader. -/
def isOpening (i : Nat) : ReadersEvent → Bool
  | opened j _ _ => i == j
  | _ => false

/-- The event is not about the scroll of another reader. -/
def concerns (i : Nat) : ReadersEvent → Bool
  | step _ _ => true
  | opened j _ _ | call j _ => i == j

theorem not_concerns {i : Nat} {e : ReadersEvent} (h : e.concerns i = false) :
    e.isCall i = false ∧ e.isOpening i = false := by
  cases e with
  | step store s => exact absurd h nofun
  | opened j p batchSize => exact ⟨rfl, h⟩
  | call j c => exact ⟨h, rfl⟩

theorem exists_of_isCall {i : Nat} {e : ReadersEvent} (h : e.isCall i = true) :
    ∃ c, e = call i c := by
  cases e with
  | step store s => exact absurd h nofun
  | opened j p batchSize => exact absurd h nofun
  | call j c =>
    obtain rfl : i = j := beq_iff_eq.1 h
    exact ⟨c, rfl⟩

/-- The calls of the reader's scroll. -/
def callsOf (i : Nat) (events : List ReadersEvent) : List ScrollCall :=
  events.filterMap fun
    | call j c => if i = j then some c else none
    | _ => none

theorem callsOf_cons_of_ne {i : Nat} {e : ReadersEvent} (h : e.isCall i = false)
    (events : List ReadersEvent) : callsOf i (e :: events) = callsOf i events := by
  cases e with
  | step store s => rfl
  | opened j p batchSize => rfl
  | call j c =>
    unfold callsOf
    rw [List.filterMap_cons_none]
    exact if_neg (beq_eq_false_iff_ne.1 h)

theorem callsOf_cons_call (i : Nat) (c : ScrollCall) (events : List ReadersEvent) :
    callsOf i (call i c :: events) = c :: callsOf i events := by
  unfold callsOf
  rw [List.filterMap_cons_some]
  exact if_pos rfl

end ReadersEvent

open ReadersEvent (callsOf callsOf_cons_of_ne callsOf_cons_call)

namespace Readers

/-- What an event makes of the world and the scrolls. -/
def after (r : Readers) : ReadersEvent → Readers
  | .step store s => { r with world := (store.step r.world s).after }
  | .opened j p batchSize =>
    { r with scrolls := Function.update r.scrolls j (p.scroll r.world batchSize) }
  | .call j c =>
    let ((_, s), w) := (r.scrolls j).call r.world c
    ⟨w, Function.update r.scrolls j s⟩

/-- What the reader's scroll answers to an event. -/
def answer? (r : Readers) (i : Nat) : ReadersEvent → Option ScrollAnswer
  | .call j c => if i = j then some ((r.scrolls i).call r.world c).1.1 else none
  | _ => none

/-- The answers of the reader's scroll to the events of a run. -/
def answers (i : Nat) : Readers → List ReadersEvent → List ScrollAnswer
  | _, [] => []
  | r, e :: events => (r.answer? i e).toList ++ answers i (r.after e) events

/-- The world and the scrolls after the first so many events of a run. -/
def moment (r : Readers) (events : List ReadersEvent) (k : Nat) : Readers :=
  (events.take k).foldl after r

variable {r r' : Readers} {events : List ReadersEvent} {i : Nat}

@[simp] theorem moment_zero (r : Readers) (events : List ReadersEvent) :
    r.moment events 0 = r := rfl

@[simp] theorem moment_cons_succ (e : ReadersEvent) (k : Nat) :
    r.moment (e :: events) (k + 1) = (r.after e).moment events k := rfl

theorem world_after_call (j : Nat) (c : ScrollCall) :
    (r.after (.call j c)).world = ((r.scrolls j).call r.world c).2 := rfl

theorem scrolls_after_call (i : Nat) (c : ScrollCall) :
    (r.after (.call i c)).scrolls i = ((r.scrolls i).call r.world c).1.2 :=
  Function.update_self _ _ _

theorem scrolls_after_opened (i : Nat) (p : PlainStore) (batchSize : Nat) :
    (r.after (.opened i p batchSize)).scrolls i = p.scroll r.world batchSize :=
  Function.update_self _ _ _

theorem answer?_call (i : Nat) (c : ScrollCall) :
    r.answer? i (.call i c) = some ((r.scrolls i).call r.world c).1.1 := if_pos rfl

/-! ### Other scrolls -/

/-- To one reader the two are the same. -/
structure SameTo (i : Nat) (r r' : Readers) : Prop where
  quiet : r.world.Quiet
  world : r.world.Matches r'.world
  scroll : r'.scrolls i = r.scrolls i

theorem quiet_after (hr : r.world.Quiet) (e : ReadersEvent) : (r.after e).world.Quiet := by
  cases e with
  | step store s => exact (store.step_matches (.refl _) hr s).2
  | opened j p batchSize => exact hr
  | call j c =>
    obtain ⟨v, hcall, hlooks⟩ := (r.scrolls j).call_quiet hr c
    rw [world_after_call, hcall]
    exact hlooks.follows.quiet hr

/-- Only steps of stores change the world. -/
theorem after_matches (hr : r.world.Quiet) {e : ReadersEvent} (h : e.concerns i = false) :
    r.world.Matches (r.after e).world := by
  cases e with
  | step store s => exact absurd h nofun
  | opened j p batchSize => exact .refl _
  | call j c =>
    obtain ⟨v, hcall, hlooks⟩ := (r.scrolls j).call_quiet hr c
    rw [world_after_call, hcall]
    exact .of_looks hlooks hr

theorem scrolls_after_of_ne {e : ReadersEvent} (hcall : e.isCall i = false)
    (hopening : e.isOpening i = false) : (r.after e).scrolls i = r.scrolls i := by
  cases e with
  | step store s => rfl
  | opened j p batchSize => exact Function.update_of_ne (beq_eq_false_iff_ne.1 hopening) _ _
  | call j c => exact Function.update_of_ne (beq_eq_false_iff_ne.1 hcall) _ _

theorem answer?_of_ne {e : ReadersEvent} (h : e.isCall i = false) : r.answer? i e = none := by
  cases e with
  | step store s => rfl
  | opened j p batchSize => rfl
  | call j c => exact if_neg (beq_eq_false_iff_ne.1 h)

/-- What is not about the reader's scroll may be left out. -/
theorem SameTo.skip (h : SameTo i r r') {e : ReadersEvent} (he : e.concerns i = false) :
    SameTo i (r.after e) r' where
  quiet := quiet_after h.quiet e
  world := (after_matches h.quiet he).symm.trans h.world
  scroll := by
    obtain ⟨hcall, hopening⟩ := ReadersEvent.not_concerns he
    rw [h.scroll, scrolls_after_of_ne hcall hopening]

/-- What is not left out is the same to the reader. -/
theorem SameTo.both (h : SameTo i r r') {e : ReadersEvent} (he : e.concerns i = true) :
    r'.answer? i e = r.answer? i e ∧ SameTo i (r.after e) (r'.after e) := by
  cases e with
  | step store s =>
    obtain ⟨hafter, hquiet⟩ := store.step_matches h.world h.quiet s
    exact ⟨rfl, hquiet, hafter, h.scroll⟩
  | opened j p batchSize =>
    obtain rfl : i = j := beq_iff_eq.1 he
    refine ⟨rfl, h.quiet, h.world, ?_⟩
    rw [scrolls_after_opened, scrolls_after_opened, PlainStore.scroll_of_matches h.world]
  | call j c =>
    obtain rfl : i = j := beq_iff_eq.1 he
    obtain ⟨v, hcall, hlooks⟩ := (r.scrolls i).call_quiet h.quiet c
    obtain ⟨v', hcall', hlooks'⟩ := (r'.scrolls i).call_quiet (h.world.quiet h.quiet) c
    rw [h.scroll, Scroll.ahead_of_matches h.world] at hcall'
    have hmatches : v.Matches v' := (World.Matches.of_looks hlooks h.quiet).symm.trans
      (h.world.trans (.of_looks hlooks' (h.world.quiet h.quiet)))
    refine ⟨?_, ?_, ?_, ?_⟩
    · rw [answer?_call, answer?_call, h.scroll, hcall, hcall']
    · rw [world_after_call, hcall]
      exact hlooks.follows.quiet h.quiet
    · rw [world_after_call, world_after_call, h.scroll, hcall, hcall']
      exact hmatches
    · rw [scrolls_after_call, scrolls_after_call, h.scroll, hcall, hcall']

/-- **Independence**: what becomes of other scrolls is no concern of a scroll. -/
theorem answers_filter (h : SameTo i r r') (events : List ReadersEvent) :
    r.answers i events = r'.answers i (events.filter (ReadersEvent.concerns i)) := by
  induction events generalizing r r' with
  | nil => rfl
  | cons e events ih =>
    by_cases he : e.concerns i = true
    · obtain ⟨hanswer, hafter⟩ := h.both he
      rw [List.filter_cons_of_pos he, answers, answers, hanswer, ih hafter]
    · have hskip := Bool.eq_false_iff.2 he
      rw [List.filter_cons_of_neg he, answers, answer?_of_ne (ReadersEvent.not_concerns hskip).1,
        ih (h.skip hskip)]
      rfl

/-! ### One scroll -/

/-- A scroll whose listing was taken goes by its pager, whatever else happens. -/
theorem answers_taken (id : String) {size : Nat} {items : List ListingItem}
    (hscroll : r.scrolls i = ⟨id, size, .taken items⟩)
    (hopen : ∀ e ∈ events, e.isOpening i = false) :
    r.answers i events =
      ((⟨size, items⟩ : Pager).calls (callsOf i events)).map PagerAnswer.ofScroll := by
  induction events generalizing r items with
  | nil => rfl
  | cons e events ih =>
    obtain ⟨hfirst, hrest⟩ := List.forall_mem_cons.1 hopen
    by_cases he : e.isCall i = true
    · obtain ⟨c, rfl⟩ := ReadersEvent.exists_of_isCall he
      rw [answers, answer?_call, hscroll, Scroll.call_ofScroll, callsOf_cons_call, Pager.calls,
        List.map_cons, Pager.rest_call]
      refine congrArg _ (ih ?_ hrest)
      rw [scrolls_after_call, hscroll, Scroll.call_ofScroll]
    · have hcall := Bool.eq_false_iff.2 he
      rw [answers, answer?_of_ne hcall, callsOf_cons_of_ne hcall]
      exact ih ((scrolls_after_of_ne hcall hfirst).trans hscroll) hrest

/-- A scroll over a remote store goes by a pager over what the store lists when it is first
called. -/
theorem answers_untaken (hr : r.world.Quiet) {id : String} {size : Nat} {q : RemoteStore}
    (hscroll : r.scrolls i = ⟨id, size, .untaken q⟩)
    (hopen : ∀ e ∈ events, e.isOpening i = false) :
    r.answers i events =
      ((⟨size, (q.listed (r.moment events (events.findIdx (ReadersEvent.isCall i))).world).map
        .ok⟩ : Pager).calls (callsOf i events)).map PagerAnswer.ofScroll := by
  induction events generalizing r with
  | nil => rfl
  | cons e events ih =>
    obtain ⟨hfirst, hrest⟩ := List.forall_mem_cons.1 hopen
    by_cases he : e.isCall i = true
    · obtain ⟨c, rfl⟩ := ReadersEvent.exists_of_isCall he
      -- the call takes the listing, and from then on the scroll goes by it
      set listing : Pager := ⟨size, (q.listed r.world).map .ok⟩ with hlisting
      obtain ⟨v, hcall, -⟩ : ∃ v, (⟨id, size, .untaken q⟩ : Scroll).call r.world c =
          (((listing.call c).1.ofScroll, ⟨id, size, .taken (listing.call c).2.rest⟩), v) ∧
            r.world.Looks v := Scroll.call_quiet hr _ c
      rw [List.findIdx_cons, he, cond_true, moment_zero, ← hlisting, answers, answer?_call,
        hscroll, hcall, callsOf_cons_call, Pager.calls, List.map_cons, Pager.rest_call listing]
      refine congrArg _ (answers_taken id ?_ hrest)
      rw [scrolls_after_call, hscroll, hcall]
    · have hcall := Bool.eq_false_iff.2 he
      rw [answers, answer?_of_ne hcall, callsOf_cons_of_ne hcall, List.findIdx_cons, hcall,
        cond_false, moment_cons_succ]
      exact ih (quiet_after hr e) ((scrolls_after_of_ne hcall hfirst).trans hscroll) hrest

end Readers

namespace PlainStore

/-- The blobs that a listing of the store has where no fault strikes. -/
def listed (p : PlainStore) (w : World) : List ListedBlob :=
  match p with
  | memory m => (m.blobs w).listed
  | remote q => q.listed w

theorem sorted_listed (p : PlainStore) (w : World) :
    (p.listed w).Pairwise fun a b => a.key < b.key := by
  cases p with
  | memory m => exact (m.blobs w).sorted_listed
  | remote q => exact q.sorted_listed w

theorem length_listed_le (p : PlainStore) (w : World) :
    (p.listed w).length ≤ (p.objects w).size := by
  cases p with
  | memory m =>
    show (m.blobs w).listed.length ≤ (m.blobs w).size
    unfold Blobs.listed
    rw [List.length_map, ExtTreeMap.length_toList]
  | remote q =>
    have hvisible : (w.container q.container).visible.length ≤
        (w.container q.container).objects.size := by
      rw [← ExtTreeMap.length_toList]
      exact List.length_filter_le _ _
    refine (List.length_filterMap_le _ _).trans (le_trans ?_ hvisible)
    unfold Container.below
    split
    · exact (List.length_filter_le _ _).trans (List.length_map _).le
    · exact (List.length_map _).le

/-- A key that the listing of the store shows where it keeps it: any key of a memory store, and a
key of one plain segment of a remote one. -/
def Direct (p : PlainStore) (key : String) : Prop :=
  match p with
  | memory _ => True
  | remote _ => Verbatim key

theorem hold?_of_direct {p : PlainStore} (hp : p.Canonical) {key : String} (h : p.Direct key)
    (w : World) : p.hold? w key = (p.objects w)[p.root ++ key]? := by
  unfold hold?
  cases p with
  | memory m => rw [show (memory m).root ++ key = key from String.empty_append]; rfl
  | remote q => rw [address_of_verbatim hp h]

/-- What is listed lies under the name of its key. -/
theorem lies_of_listed {p : PlainStore} {w : World} {blob : ListedBlob} (h : blob ∈ p.listed w) :
    (p.objects w)[p.root ++ blob.key]?.map List.length = some blob.size := by
  cases p with
  | memory m =>
    rw [show (memory m).root ++ blob.key = blob.key from String.empty_append]
    exact Blobs.mem_listed.1 h
  | remote q => exact (RemoteStore.mem_listed.1 h).2

theorem listed_of_direct {p : PlainStore} (hp : p.Canonical) {w : World} {key : String}
    (hkey : p.Direct key) {content : Bytes} (h : p.hold? w key = some content) :
    ⟨key, content.length⟩ ∈ p.listed w := by
  have hlies : (p.objects w)[p.root ++ key]?.map List.length = some content.length := by
    rw [← hold?_of_direct hp hkey, h]
    rfl
  cases p with
  | memory m =>
    rw [show (memory m).root ++ key = key from String.empty_append] at hlies
    exact Blobs.mem_listed.2 hlies
  | remote q => exact RemoteStore.mem_listed.2 ⟨(RemoteStore.shows_iff hp).2 hkey.1, hlies⟩

/-- When the blobs are listed that a new scroll hands out: at once, or at the first call. -/
def listedAt (p : PlainStore) (i : Nat) (events : List ReadersEvent) : Nat :=
  match p with
  | memory _ => 0
  | remote _ => events.findIdx (ReadersEvent.isCall i)

end PlainStore

namespace Readers

variable {p : PlainStore} {r : Readers} {events : List ReadersEvent} {i batchSize : Nat}

/-- A scroll goes by a pager over what its store lists at one moment. -/
theorem answers_snapshot (hr : r.world.Quiet) (hscroll : r.scrolls i = p.scroll r.world batchSize)
    (hopen : ∀ e ∈ events, e.isOpening i = false) :
    r.answers i events =
      ((⟨max batchSize 1, (p.listed (r.moment events (p.listedAt i events)).world).map
        .ok⟩ : Pager).calls (callsOf i events)).map PagerAnswer.ofScroll := by
  cases p with
  | memory m =>
    refine answers_taken m.catalog.id (hscroll.trans ?_) hopen
    show Scroll.ofListing _ (m.items r.world) batchSize = _
    rw [m.items_eq]
    rfl
  | remote q => exact answers_untaken hr hscroll hopen

end Readers

/-! ## What is handed out -/

namespace ScrollAnswer

/-- The blobs that the answer hands out. -/
def blobs : ScrollAnswer → List ListedBlob
  | batch (.ok page) => page
  | _ => []

/-- The answer says that the scroll is at its end. -/
def IsEnd : ScrollAnswer → Prop
  | more b => b = false
  | batch page => page = .error .noSuchElement

end ScrollAnswer

/-- What the answers of a scroll make of a listing without failures, when it was asked for so many
pages: they hand out the front of it, an end says that nothing is left, and it comes when more pages
were asked for than there are blobs. -/
structure HandsOut (blobs : List ListedBlob) (asked : Nat) (answers : List ScrollAnswer) :
    Prop where
  front : ∃ rest, answers.flatMap ScrollAnswer.blobs ++ rest = blobs ∧
    ((∃ a ∈ answers, a.IsEnd) → rest = [])
  ends : blobs.length < asked → ∃ a ∈ answers, a.IsEnd
  failure : ∀ e, .batch (.error e) ∈ answers → e = .noSuchElement

namespace HandsOut

variable {blobs : List ListedBlob} {asked : Nat} {answers : List ScrollAnswer}

theorem nil (blobs : List ListedBlob) : HandsOut blobs 0 [] where
  front := ⟨blobs, rfl, fun ⟨_, ha, _⟩ => absurd ha List.not_mem_nil⟩
  ends h := absurd h (Nat.not_lt_zero _)
  failure _ h := absurd h List.not_mem_nil

theorem more (h : HandsOut blobs asked answers) :
    HandsOut blobs asked (.more (!blobs.isEmpty) :: answers) where
  front := by
    obtain ⟨rest, hrest, hend⟩ := h.front
    refine ⟨rest, hrest, ?_⟩
    rintro ⟨a, ha, hisend⟩
    rcases List.mem_cons.1 ha with rfl | ha
    · -- nothing is left of an empty listing
      have hempty : blobs = [] := by
        have : (!blobs.isEmpty) = false := hisend
        rwa [Bool.not_eq_false', List.isEmpty_iff] at this
      rw [hempty] at hrest
      exact (List.append_eq_nil_iff.1 hrest).2
    · exact hend ⟨a, ha, hisend⟩
  ends hlt := by
    obtain ⟨a, ha, hisend⟩ := h.ends hlt
    exact ⟨a, List.mem_cons_of_mem _ ha, hisend⟩
  failure e he := by
    rcases List.mem_cons.1 he with heq | he
    · exact absurd heq nofun
    · exact h.failure e he

theorem page {size : Nat} (hs : 1 ≤ size) (hne : blobs ≠ [])
    (h : HandsOut (blobs.drop size) asked answers) :
    HandsOut blobs (asked + 1) (.batch (.ok (blobs.take size)) :: answers) where
  front := by
    obtain ⟨rest, hrest, hend⟩ := h.front
    refine ⟨rest, ?_, ?_⟩
    · rw [List.flatMap_cons, List.append_assoc, hrest]
      exact List.take_append_drop size blobs
    · rintro ⟨a, ha, hisend⟩
      rcases List.mem_cons.1 ha with rfl | ha
      · exact absurd hisend nofun
      · exact hend ⟨a, ha, hisend⟩
  ends hlt := by
    have hpos := List.length_pos_iff.2 hne
    obtain ⟨a, ha, hisend⟩ := h.ends (by rw [List.length_drop]; omega)
    exact ⟨a, List.mem_cons_of_mem _ ha, hisend⟩
  failure e he := by
    rcases List.mem_cons.1 he with heq | he
    · exact absurd heq nofun
    · exact h.failure e he

theorem ended (h : HandsOut [] asked answers) :
    HandsOut [] (asked + 1) (.batch (.error .noSuchElement) :: answers) where
  front := by
    obtain ⟨rest, hrest, -⟩ := h.front
    exact ⟨rest, hrest, fun _ => (List.append_eq_nil_iff.1 hrest).2⟩
  ends _ := ⟨_, List.mem_cons_self, rfl⟩
  failure e he := by
    rcases List.mem_cons.1 he with heq | he
    · exact Except.error.inj (ScrollAnswer.batch.inj heq)
    · exact h.failure e he

end HandsOut

/-- A pager hands out a listing without failures. -/
theorem Pager.handsOut {size : Nat} (hs : 1 ≤ size) (blobs : List ListedBlob)
    (cs : List ScrollCall) :
    HandsOut blobs (cs.countP ScrollCall.takesPage)
      (((⟨size, blobs.map .ok⟩ : Pager).calls cs).map PagerAnswer.ofScroll) := by
  induction cs generalizing blobs with
  | nil => exact .nil blobs
  | cons c cs ih =>
    rw [calls, List.map_cons]
    cases c with
    | hasNext =>
      have hmore : (⟨size, blobs.map .ok⟩ : Pager).hasMore = !blobs.isEmpty := by
        unfold hasMore
        rw [List.isEmpty_map]
      rw [List.countP_cons_of_neg (by decide)]
      show HandsOut _ _ (.more (⟨size, blobs.map .ok⟩ : Pager).hasMore :: _)
      rw [hmore]
      exact (ih blobs).more
    | next =>
      rw [List.countP_cons_of_pos (by decide)]
      by_cases hne : blobs = []
      · subst hne
        rw [List.map_nil, call_nil]
        exact (ih []).ended
      · have hnext := next_of_collect (p := ⟨size, blobs.map .ok⟩) (collect_map_ok size blobs)
          (take_ne_nil hs hne)
        unfold call
        rw [hnext]
        exact (ih (blobs.drop size)).page hs hne

/-! ## Between two moments -/

/-- What lies at a place all the time stays the same, as long as no change exchanges it. -/
theorem World.bytesAt?_of_present {worlds : Nat → World}
    (hstep : ∀ k, (worlds k).FillsThenDrops (worlds (k + 1))) (place : Place) {n : Nat}
    (hpresent : ∀ k ≤ n, ((worlds k).bytesAt? place).isSome) :
    (worlds n).bytesAt? place = (worlds 0).bytesAt? place := by
  induction n with
  | zero => rfl
  | succ n ih =>
    rw [← ih fun k hk => hpresent k (Nat.le_succ_of_le hk)]
    obtain ⟨before, hbefore⟩ := Option.isSome_iff_exists.1 (hpresent n (Nat.le_succ n))
    obtain ⟨now, hnow⟩ := Option.isSome_iff_exists.1 (hpresent (n + 1) (Nat.le_refl _))
    rw [hbefore, hnow, (hstep n).eq_of_some hbefore hnow]

namespace Readers

variable {r : Readers} {events : List ReadersEvent} {i : Nat}

theorem fillsThenDrops_after (hr : r.world.Quiet) (e : ReadersEvent) :
    r.world.FillsThenDrops (r.after e).world := by
  cases e with
  | step store s => exact store.step_fillsThenDrops hr.tellsHeads s
  | opened j p batchSize => exact World.Fills.thenDrops fun _ => .inl rfl
  | call j c =>
    obtain ⟨v, hcall, hlooks⟩ := (r.scrolls j).call_quiet hr c
    rw [world_after_call, hcall]
    exact hlooks.keeps.fills.thenDrops

theorem moment_succ {k : Nat} {e : ReadersEvent} (h : events[k]? = some e) :
    r.moment events (k + 1) = (r.moment events k).after e := by
  unfold moment
  exact foldl_take_succ after r h

theorem moment_of_length_le {k : Nat} (h : events.length ≤ k) :
    r.moment events (k + 1) = r.moment events k := by
  unfold moment
  rw [List.take_of_length_le h, List.take_of_length_le (Nat.le_succ_of_le h)]

theorem quiet_moment (hr : r.world.Quiet) (events : List ReadersEvent) (k : Nat) :
    (r.moment events k).world.Quiet := by
  induction k with
  | zero => exact hr
  | succ k ih =>
    by_cases hk : k < events.length
    · rw [moment_succ (List.getElem?_eq_getElem hk)]
      exact quiet_after ih _
    · rw [moment_of_length_le (Nat.le_of_not_lt hk)]
      exact ih

theorem fillsThenDrops_moment (hr : r.world.Quiet) (events : List ReadersEvent) (k : Nat) :
    (r.moment events k).world.FillsThenDrops (r.moment events (k + 1)).world := by
  by_cases hk : k < events.length
  · rw [moment_succ (List.getElem?_eq_getElem hk)]
    exact fillsThenDrops_after (quiet_moment hr events k) _
  · rw [moment_of_length_le (Nat.le_of_not_lt hk)]
    exact World.Fills.thenDrops fun _ => .inl rfl

/-- A blob that is there all the time keeps its content. -/
theorem hold?_of_present {p : PlainStore} (hr : r.world.Quiet) {key : String} {n : Nat}
    (hpresent : ∀ k ≤ n, (p.hold? (r.moment events k).world key).isSome) {k : Nat} (hk : k ≤ n) :
    p.hold? (r.moment events k).world key = p.hold? r.world key := by
  have hplace := World.bytesAt?_of_present (fillsThenDrops_moment hr events)
    (p.placeOf (p.address key)) (n := k) fun j hj => by
      rw [PlainStore.bytesAt?_placeOf]
      exact hpresent j (hj.trans hk)
  rwa [PlainStore.bytesAt?_placeOf, PlainStore.bytesAt?_placeOf] at hplace

/-! ## Fronts of a run -/

theorem answers_append (i : Nat) (events more : List ReadersEvent) :
    r.answers i (events ++ more) =
      r.answers i events ++ (events.foldl after r).answers i more := by
  induction events generalizing r with
  | nil => rfl
  | cons e events ih =>
    rw [List.cons_append, answers, answers, ih, List.append_assoc, List.foldl_cons]

theorem moment_take {k n : Nat} (h : k ≤ n) :
    r.moment (events.take n) k = r.moment events k := by
  unfold moment
  rw [List.take_take, Nat.min_eq_left h]

theorem answers_of_no_call (h : ∀ e ∈ events, e.isCall i = false) : r.answers i events = [] := by
  induction events generalizing r with
  | nil => rfl
  | cons e events ih =>
    obtain ⟨hfirst, hrest⟩ := List.forall_mem_cons.1 h
    rw [answers, answer?_of_ne hfirst, ih hrest]
    rfl

/-- Where no store does anything, nothing changes. -/
theorem moment_matches (hr : r.world.Quiet) (h : ∀ e ∈ events, e.concerns i = false) (k : Nat) :
    r.world.Matches (r.moment events k).world := by
  induction k with
  | zero => exact .refl _
  | succ k ih =>
    by_cases hk : k < events.length
    · rw [moment_succ (List.getElem?_eq_getElem hk)]
      exact ih.trans (after_matches (quiet_moment hr events k) (h _ (List.getElem_mem hk)))
    · rw [moment_of_length_le (Nat.le_of_not_lt hk)]
      exact ih

/-- A scroll that came to its end within the first so many events was listed by then. -/
theorem listedAt_le {p : PlainStore} {n : Nat} (h : ∃ a ∈ r.answers i (events.take n), a.IsEnd) :
    p.listedAt i events ≤ n := by
  cases p with
  | memory m => exact Nat.zero_le n
  | remote q =>
    by_contra hlt
    have hlate : n < events.findIdx (ReadersEvent.isCall i) := Nat.lt_of_not_le hlt
    have hnone : r.answers i (events.take n) = [] := by
      refine answers_of_no_call fun e he => ?_
      obtain ⟨k, hk, rfl⟩ := List.mem_take_iff_getElem.1 he
      have hearly : k < events.findIdx (ReadersEvent.isCall i) :=
        (lt_of_lt_of_le hk (Nat.min_le_left _ _)).trans hlate
      exact List.not_of_lt_findIdx hearly
    obtain ⟨a, ha, -⟩ := h
    rw [hnone] at ha
    exact absurd ha List.not_mem_nil

end Readers

/-! ## Scrolls under mutation -/

/-- One blob of a listing is all that it has under its key. -/
theorem filter_key_eq {blobs : List ListedBlob} (hnodup : (blobs.map ListedBlob.key).Nodup)
    {blob : ListedBlob} (h : blob ∈ blobs) :
    (blobs.filter fun b => b.key = blob.key) = [blob] := by
  have hinj := List.inj_on_of_nodup_map hnodup
  refine List.perm_singleton.1 ((List.perm_ext_iff_of_nodup (hnodup.of_map.filter _)
    (List.nodup_singleton _)).2 fun b => ?_)
  rw [List.mem_filter, List.mem_singleton, decide_eq_true_iff]
  constructor
  · rintro ⟨hb, hkey⟩
    exact hinj hb h hkey
  · rintro rfl
    exact ⟨h, rfl⟩

namespace PlainStore

variable {p : PlainStore} {r : Readers} {i batchSize : Nat} {events : List ReadersEvent}

theorem listedAt_le_length (p : PlainStore) (i : Nat) (events : List ReadersEvent) :
    p.listedAt i events ≤ events.length := by
  cases p with
  | memory m => exact Nat.zero_le _
  | remote q => exact List.findIdx_le_length

/-- A new scroll hands out what its store lists at one moment. -/
theorem scroll_handsOut (hr : r.world.Quiet) (hscroll : r.scrolls i = p.scroll r.world batchSize)
    (hopen : ∀ e ∈ events, e.isOpening i = false) :
    HandsOut (p.listed (r.moment events (p.listedAt i events)).world)
      ((callsOf i events).countP ScrollCall.takesPage) (r.answers i events) := by
  rw [Readers.answers_snapshot hr hscroll hopen]
  exact Pager.handsOut (Nat.le_max_right _ _) _ _

/-- **Scrolls under mutation.** A scroll that is opened over a store hands out, whatever is done
through any stores between its calls, the blobs of one moment:

1. in the order of the bytes of their keys, and so none twice;
2. whatever it has handed out lay in the store at a moment since it was opened;
3. once it has come to its end, a blob that was there all the while was handed out once, with its
   size;
4. it comes to its end when it is asked for more pages than the store ever had objects;
5. it never fails otherwise;
6. and no answer depends on what becomes of the other scrolls. -/
theorem scrolled_under_mutation (hp : p.Canonical) (hr : r.world.Quiet)
    (hscroll : r.scrolls i = p.scroll r.world batchSize)
    (hopen : ∀ e ∈ events, e.isOpening i = false) :
    let yielded := (r.answers i events).flatMap ScrollAnswer.blobs
    (yielded.Pairwise fun a b => Bytes.ofText a.key < Bytes.ofText b.key) ∧
      (∀ n, ∀ blob ∈ (r.answers i (events.take n)).flatMap ScrollAnswer.blobs, ∃ k ≤ n,
        (p.objects (r.moment events k).world)[p.root ++ blob.key]?.map List.length =
            some blob.size ∧
          (p.Direct blob.key →
            (p.hold? (r.moment events k).world blob.key).map List.length = some blob.size)) ∧
      (∀ n key, p.Direct key → (∃ a ∈ r.answers i (events.take n), a.IsEnd) →
        (∀ k ≤ n, (p.hold? (r.moment events k).world key).isSome) →
          ∃ content, p.hold? r.world key = some content ∧
            (yielded.filter fun b => b.key = key) = [⟨key, content.length⟩]) ∧
      (∀ bound, (∀ k ≤ events.length, (p.objects (r.moment events k).world).size ≤ bound) →
        bound < (callsOf i events).countP ScrollCall.takesPage →
          ∃ a ∈ r.answers i events, a.IsEnd) ∧
      (∀ e, .batch (.error e) ∈ r.answers i events → e = .noSuchElement) ∧
      ∀ j, r.answers j events = r.answers j (events.filter (ReadersEvent.concerns j)) := by
  intro yielded
  have hout := scroll_handsOut hr hscroll hopen
  obtain ⟨rest, hrest, hend⟩ := hout.front
  refine ⟨?_, fun n blob hblob => ?_, fun n key hkey hended hpresent => ?_,
    fun bound hbound hasked => ?_, hout.failure,
    fun j => Readers.answers_filter ⟨hr, .refl _, rfl⟩ events⟩
  · have hprefix : yielded <+: p.listed (r.moment events (p.listedAt i events)).world :=
      ⟨rest, hrest⟩
    exact ((p.sorted_listed _).sublist hprefix.sublist).imp Bytes.ofText_lt
  · have hopen' : ∀ e ∈ events.take n, e.isOpening i = false :=
      fun e he => hopen e (List.mem_of_mem_take he)
    have hfront := (scroll_handsOut hr hscroll hopen').front
    obtain ⟨rest', hrest', -⟩ := hfront
    have hle : p.listedAt i (events.take n) ≤ n :=
      (p.listedAt_le_length i _).trans (List.length_take_le _ _)
    rw [Readers.moment_take hle] at hrest'
    have hlies := lies_of_listed (hrest' ▸ List.mem_append_left rest' hblob)
    refine ⟨_, hle, hlies, fun hdirect => ?_⟩
    rw [hold?_of_direct hp hdirect]
    exact hlies
  · have hle := Readers.listedAt_le (p := p) hended
    obtain ⟨content, hcontent⟩ := Option.isSome_iff_exists.1 (hpresent 0 (Nat.zero_le n))
    have hlisted : ⟨key, content.length⟩ ∈
        p.listed (r.moment events (p.listedAt i events)).world := by
      refine listed_of_direct hp hkey ?_
      rw [Readers.hold?_of_present hr hpresent hle]
      exact hcontent
    -- the scroll came to its end, so all of the listing was handed out
    have hall : rest = [] := by
      obtain ⟨a, ha, hisend⟩ := hended
      refine hend ⟨a, ?_, hisend⟩
      rw [← List.take_append_drop n events, Readers.answers_append]
      exact List.mem_append_left _ ha
    rw [hall, List.append_nil] at hrest
    refine ⟨content, hcontent, ?_⟩
    show (List.filter _ yielded) = _
    rw [show yielded = _ from hrest]
    exact filter_key_eq (nodup_of_sorted_blobs (p.sorted_listed _)) hlisted
  · refine hout.ends (lt_of_le_of_lt ?_ hasked)
    exact (p.length_listed_le _).trans (hbound _ (p.listedAt_le_length i events))

/-- One of two blobs is deleted while the scroll is open; the other one is handed out once. -/
theorem scrolled_while_deleting :
    let m : MemoryStore := { name := "store", memory := "store", tempDir := .scratch "temps" }
    let w : World :=
      ({} : World).setMemory "store" ((ExtTreeMap.insert ∅ "a" [1, 2]).insert "b" [3])
    let r : Readers := ⟨w, fun _ => (memory m).scroll w 1⟩
    let events : List ReadersEvent :=
      [.call 0 .next, .step (.memory m) ⟨1, .delete "b"⟩, .call 0 .next, .call 0 .next]
    (memory m).Canonical ∧ w.Quiet ∧ (∀ e ∈ events, e.isOpening 0 = false) ∧
      (∃ a ∈ r.answers 0 (events.take 4), a.IsEnd) ∧
      (∀ k ≤ 4, ((memory m).hold? (r.moment events k).world "a").isSome) ∧
      (((r.answers 0 events).flatMap ScrollAnswer.blobs).filter fun b => b.key = "a") =
        [⟨"a", 2⟩] := by
  intro m w r events
  have hw : w.Quiet := World.quiet_of_containers rfl
  have hopen : ∀ e ∈ events, e.isOpening 0 = false := by decide
  have hlisted : (memory m).listed w = [⟨"a", 2⟩, ⟨"b", 1⟩] := by decide
  have hanswers : r.answers 0 events =
      [.batch (.ok [⟨"a", 2⟩]), .batch (.ok [⟨"b", 1⟩]), .batch (.error .noSuchElement)] := by
    rw [Readers.answers_snapshot (p := memory m) hw rfl hopen]
    show ((⟨1, ((memory m).listed w).map .ok⟩ : Pager).calls [.next, .next, .next]).map _ = _
    rw [hlisted]
    rfl
  have hpresent : ∀ k ≤ 4, ((memory m).hold? (r.moment events k).world "a").isSome := by
    decide
  have hended : ∃ a ∈ r.answers 0 (events.take 4), a.IsEnd := by
    show ∃ a ∈ r.answers 0 events, a.IsEnd
    rw [hanswers]
    exact ⟨_, List.mem_of_getLast? rfl, rfl⟩
  have hscroll : r.scrolls 0 = (memory m).scroll r.world 1 := rfl
  obtain ⟨-, -, honce, -⟩ :=
    scrolled_under_mutation (p := memory m) (r := r) trivial hw hscroll hopen
  obtain ⟨content, hcontent, hyielded⟩ := honce 4 "a" trivial hended hpresent
  have hheld : (memory m).hold? r.world "a" = some [1, 2] := by decide
  obtain rfl : [1, 2] = content := Option.some.inj (hheld.symm.trans hcontent)
  exact ⟨trivial, hw, hopen, hended, hpresent, hyielded⟩

/-- A key of two segments, kept under the root as it is, in a store that lists what lies directly
under the root: the scroll comes to its end without it. -/
theorem nested_key_not_handed_out :
    let q : RemoteStore := {
      name := "vault"
      location := ⟨"account", "box"⟩
      container := "box"
      space := .ofText "cas"
      tempDir := .scratch "temps" }
    let w : World :=
      ({} : World).setContainer "box" { objects := ExtTreeMap.insert ∅ "cas/a/b" [1] }
    let r : Readers := ⟨w, fun _ => (remote q).scroll w 1⟩
    let events : List ReadersEvent := [.call 0 .hasNext, .call 0 .next]
    (remote q).Canonical ∧ w.Quiet ∧ (remote q).address "a/b" = "cas/" ++ "a/b" ∧
      (∀ k, (remote q).hold? (r.moment events k).world "a/b" = some [1]) ∧
      (∃ a ∈ r.answers 0 events, a.IsEnd) ∧
      (r.answers 0 events).flatMap ScrollAnswer.blobs = [] := by
  intro q w r events
  have hp : q.space.Canonical := by decide
  have hbox : w.container "box" = { objects := ExtTreeMap.insert ∅ "cas/a/b" [1] } :=
    World.container_setContainer_self _ _ _
  have hw : w.Quiet := World.Quiet.setContainer (World.quiet_of_containers rfl)
    (c := { objects := ExtTreeMap.insert ∅ "cas/a/b" [1] }) rfl "box"
  have haddress : (remote q).address "a/b" = "cas/" ++ "a/b" := by decide
  have hcalls : ∀ e ∈ events, e.concerns 1 = false := by decide
  have hmatches : ∀ k, w.Matches (r.moment events k).world := fun k =>
    Readers.moment_matches (r := r) hw hcalls k
  have hlisted : (remote q).listed w = [] := by
    refine List.eq_nil_iff_forall_not_mem.2 fun blob hblob => ?_
    obtain ⟨⟨hplain, -⟩, hlies⟩ := RemoteStore.mem_listed.1 hblob
    rw [hbox] at hlies
    obtain ⟨content, hcontent, -⟩ := Option.map_eq_some_iff.1 hlies
    have hname : "cas/a/b" = q.space.root ++ blob.key := by
      by_contra hne
      rw [ExtTreeMap.getElem?_insert,
        if_neg (by rwa [Std.LawfulEqCmp.compare_eq_iff_eq])] at hcontent
      exact absurd hcontent nofun
    have hkey : "a/b" = blob.key := root_append_inj (p := remote q) hname
    rw [← hkey] at hplain
    exact hplain.2 (by decide)
  have hanswers : r.answers 0 events = [.more false, .batch (.error .noSuchElement)] := by
    rw [Readers.answers_snapshot (p := remote q) hw rfl (by decide)]
    show ((⟨1, ((remote q).listed w).map .ok⟩ : Pager).calls [.hasNext, .next]).map _ = _
    rw [hlisted]
    rfl
  refine ⟨hp, hw, haddress, fun k => ?_, ?_, ?_⟩
  · unfold hold?
    rw [haddress]
    show ((r.moment events k).world.container "box").objects[_]? = _
    rw [(hmatches k).containers, hbox]
    exact ExtTreeMap.getElem?_insert_self
  · rw [hanswers]
    exact ⟨_, List.mem_cons_self, rfl⟩
  · rw [hanswers]
    rfl

end PlainStore

end BlobVault
