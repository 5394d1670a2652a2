import BlobVault.Proofs.Paging
import BlobVault.Proofs.Simulation

/-!
# What the pages of a listing come to

The failures of a listing cut it into runs of blobs (`Runs`). The pages that are asked for one after
the other come to one list of outcomes, which is a matter of the runs and of the page size alone:
the full pages of a run and the failure behind it, run by run, and all the pages of the last run.

1. `pagesOf`: the pages of one run, and what they hold.
2. `Runs`, `Runs.outcomes`: the runs of a listing, and what they come to.
3. `Pager.next_of_outcomes`: one page.
4. `Pager.calls_eq`, `Scroll.calls_eq`: calls in any order.
5. `Scroll.answers_by_runs`: the law of paging.
-/

namespace BlobVault

open Std (ExtTreeMap)

/-! ## The pages of a run -/

/-- The first `count` pages of a run of blobs. -/
def pagesOf (size : Nat) (blobs : List ListedBlob) (count : Nat) : List Page :=
  (List.range count).map fun i => (blobs.drop (i * size)).take size

/-- The pages that a run fills. -/
def fullPages (size : Nat) (blobs : List ListedBlob) : List Page :=
  pagesOf size blobs (blobs.length / size)

/-- How many pages a run begins. -/
def pageCount (size : Nat) (blobs : List ListedBlob) : Nat := (blobs.length + size - 1) / size

/-- The pages that a run begins, of which the last may not be full. -/
def allPages (size : Nat) (blobs : List ListedBlob) : List Page :=
  pagesOf size blobs (pageCount size blobs)

section Run

variable {size : Nat} {blobs : List ListedBlob}

@[simp]
theorem length_pagesOf (count : Nat) : (pagesOf size blobs count).length = count := by
  unfold pagesOf
  rw [List.length_map, List.length_range]

@[simp]
theorem pagesOf_zero : pagesOf size blobs 0 = [] := rfl

theorem pagesOf_succ (count : Nat) :
    pagesOf size blobs (count + 1) = blobs.take size :: pagesOf size (blobs.drop size) count := by
  unfold pagesOf
  rw [List.range_succ_eq_map, List.map_cons, List.map_map, Nat.zero_mul, List.drop_zero]
  congr 1
  refine List.map_congr_left fun i _ => ?_
  rw [Function.comp_apply, List.drop_drop, Nat.succ_mul, Nat.add_comm]

/-- Pages hold the blobs of their run in order. -/
theorem flatten_pagesOf (count : Nat) :
    (pagesOf size blobs count).flatten = blobs.take (count * size) := by
  induction count generalizing blobs with
  | zero => rw [pagesOf_zero, List.flatten_nil, Nat.zero_mul, List.take_zero]
  | succ count ih =>
    rw [pagesOf_succ, List.flatten_cons, ih, Nat.succ_mul, Nat.add_comm (count * size),
      List.take_add]

/-- A page in front of the end of the run is full. -/
theorem length_getElem_pagesOf {count i : Nat} {page : Page}
    (h : (pagesOf size blobs count)[i]? = some page) (hi : (i + 1) * size ≤ blobs.length) :
    page.length = size := by
  unfold pagesOf at h
  rw [List.getElem?_map, Option.map_eq_some_iff] at h
  obtain ⟨j, hj, rfl⟩ := h
  obtain ⟨-, rfl⟩ : i < count ∧ i = j := by
    rw [List.getElem?_eq_some_iff] at hj
    obtain ⟨hlt, hj⟩ := hj
    rw [List.length_range] at hlt
    rw [List.getElem_range] at hj
    exact ⟨hlt, hj⟩
  rw [List.length_take, List.length_drop]
  rw [Nat.succ_mul] at hi
  omega

theorem length_of_mem_pagesOf {count : Nat} {page : Page} (h : page ∈ pagesOf size blobs count) :
    page.length ≤ size := by
  unfold pagesOf at h
  obtain ⟨i, -, rfl⟩ := List.mem_map.1 h
  exact List.length_take_le _ _

theorem length_of_mem_fullPages {page : Page} (h : page ∈ fullPages size blobs) :
    page.length = size := by
  obtain ⟨i, hi⟩ := List.mem_iff_getElem?.1 h
  refine length_getElem_pagesOf hi ?_
  have hlt := (List.getElem?_eq_some_iff.1 hi).1
  rw [fullPages, length_pagesOf] at hlt
  exact (Nat.mul_le_mul_right size hlt).trans (Nat.div_mul_le_self _ _)

/-- What does not fill a page is missing from the full pages. -/
theorem flatten_fullPages :
    (fullPages size blobs).flatten = blobs.take (blobs.length - blobs.length % size) := by
  have hdiv := Nat.div_add_mod' blobs.length size
  unfold fullPages
  rw [flatten_pagesOf]
  congr 1
  omega

/-- Every page of a run but the last is full. -/
theorem length_of_mem_dropLast_allPages {page : Page} (h : page ∈ (allPages size blobs).dropLast) :
    page.length = size := by
  obtain ⟨i, hi⟩ := List.mem_iff_getElem?.1 h
  have hlt := (List.getElem?_eq_some_iff.1 hi).1
  rw [List.length_dropLast, allPages, length_pagesOf] at hlt
  rw [List.getElem?_dropLast, if_pos (by rwa [allPages, length_pagesOf])] at hi
  refine length_getElem_pagesOf hi ?_
  have hnext : i + 2 ≤ pageCount size blobs := by omega
  have hle : (i + 2) * size ≤ blobs.length + size - 1 :=
    (Nat.mul_le_mul_right size hnext).trans (Nat.div_mul_le_self _ _)
  rw [Nat.succ_mul] at hle
  omega

variable (hs : 1 ≤ size)
include hs

theorem le_pageCount_mul : blobs.length ≤ pageCount size blobs * size := by
  unfold pageCount
  have hdiv := Nat.div_add_mod (blobs.length + size - 1) size
  have hmod := Nat.mod_lt (blobs.length + size - 1) hs
  rw [Nat.mul_comm] at hdiv
  omega

theorem flatten_allPages : (allPages size blobs).flatten = blobs := by
  unfold allPages
  rw [flatten_pagesOf, List.take_of_length_le (le_pageCount_mul hs)]

theorem take_ne_nil (h : blobs ≠ []) : blobs.take size ≠ [] := by
  rw [Ne, List.take_eq_nil_iff]
  rintro (rfl | rfl)
  · exact absurd hs (by omega)
  · exact h rfl

theorem allPages_nil : allPages size [] = [] := by
  unfold allPages pageCount
  rw [List.length_nil, Nat.zero_add, Nat.div_eq_of_lt (by omega), pagesOf_zero]

theorem allPages_of_ne_nil (h : blobs ≠ []) :
    allPages size blobs = blobs.take size :: allPages size (blobs.drop size) := by
  have hpos := List.length_pos_iff.2 h
  have hcount : pageCount size blobs = pageCount size (blobs.drop size) + 1 := by
    unfold pageCount
    rw [List.length_drop]
    by_cases hlt : blobs.length < size
    · rw [Nat.sub_eq_zero_of_le (Nat.le_of_lt hlt), Nat.zero_add,
        Nat.div_eq_of_lt (by omega : size - 1 < size),
        show blobs.length + size - 1 = (blobs.length - 1) + size by omega, Nat.add_div_right _ hs,
        Nat.div_eq_of_lt (by omega)]
    · rw [show blobs.length + size - 1 = (blobs.length - size + size - 1) + size by omega,
        Nat.add_div_right _ hs]
  unfold allPages
  rw [hcount, pagesOf_succ]

omit hs in
theorem fullPages_of_lt (h : blobs.length < size) : fullPages size blobs = [] := by
  unfold fullPages
  rw [Nat.div_eq_of_lt h, pagesOf_zero]

theorem fullPages_of_le (h : size ≤ blobs.length) :
    fullPages size blobs = blobs.take size :: fullPages size (blobs.drop size) := by
  have hcount : blobs.length / size = (blobs.drop size).length / size + 1 := by
    rw [List.length_drop, ← Nat.add_div_right _ hs, Nat.sub_add_cancel h]
  unfold fullPages
  rw [hcount, pagesOf_succ]

/-- No page of a run is empty. -/
theorem ne_nil_of_mem_allPages {page : Page} (h : page ∈ allPages size blobs) : page ≠ [] := by
  induction hn : blobs.length using Nat.strongRecOn generalizing blobs with
  | _ n ih =>
    by_cases hne : blobs = []
    · subst hne
      rw [allPages_nil hs] at h
      exact absurd h List.not_mem_nil
    · have hpos := List.length_pos_iff.2 hne
      rw [allPages_of_ne_nil hs hne] at h
      rcases List.mem_cons.1 h with rfl | h
      · exact take_ne_nil hs hne
      · exact ih _ (by rw [List.length_drop]; omega) h rfl

end Run

/-! ## The runs of a listing -/

/-- The runs of a listing: the blobs in front of each failure, with the failure, and the blobs
behind the last one. -/
structure Runs where
  broken : List (List ListedBlob × BlobError)
  last : List ListedBlob
  deriving DecidableEq, Repr

namespace Runs

/-- The listing that has these runs. -/
def items (r : Runs) : List ListingItem :=
  r.broken.flatMap (fun (blobs, e) => blobs.map .ok ++ [.error e]) ++ r.last.map .ok

/-- Cuts a listing behind each of its failures. -/
def of : List ListingItem → Runs
  | [] => ⟨[], []⟩
  | .error e :: items => ⟨([], e) :: (of items).broken, (of items).last⟩
  | .ok blob :: items =>
    match of items with
    | ⟨[], last⟩ => ⟨[], blob :: last⟩
    | ⟨(blobs, e) :: broken, last⟩ => ⟨(blob :: blobs, e) :: broken, last⟩

/-- What the pages come to that are asked for one after the other. -/
def outcomes (size : Nat) (r : Runs) : List (Except BlobError Page) :=
  r.broken.flatMap (fun (blobs, e) => (fullPages size blobs).map .ok ++ [.error e]) ++
    (allPages size r.last).map .ok

theorem of_map_ok (blobs : List ListedBlob) : of (blobs.map .ok) = ⟨[], blobs⟩ := by
  induction blobs with
  | nil => rfl
  | cons blob blobs ih => rw [List.map_cons, of, ih]

theorem of_map_ok_append (blobs : List ListedBlob) (e : BlobError) (rest : List ListingItem) :
    of (blobs.map .ok ++ .error e :: rest) =
      ⟨(blobs, e) :: (of rest).broken, (of rest).last⟩ := by
  induction blobs with
  | nil => rfl
  | cons blob blobs ih => rw [List.map_cons, List.cons_append, of, ih]

theorem items_of (items : List ListingItem) : (of items).items = items := by
  induction hn : items.length using Nat.strongRecOn generalizing items with
  | _ n ih =>
    rcases Pager.items_eq_or items with ⟨blobs, rfl⟩ | ⟨blobs, e, rest, rfl⟩
    · rw [of_map_ok]
      rfl
    · have hrest := ih rest.length (by rw [← hn]; simp; omega) rest rfl
      rw [of_map_ok_append]
      conv_rhs => rw [← hrest]
      unfold Runs.items
      simp only [List.flatMap_cons, List.append_assoc, List.cons_append, List.nil_append]

theorem outcomes_cons (size : Nat) (blobs : List ListedBlob) (e : BlobError)
    (broken : List (List ListedBlob × BlobError)) (last : List ListedBlob) :
    outcomes size ⟨(blobs, e) :: broken, last⟩ =
      (fullPages size blobs).map .ok ++ .error e :: outcomes size ⟨broken, last⟩ := by
  unfold outcomes
  simp only [List.flatMap_cons, List.append_assoc, List.cons_append, List.nil_append]

theorem outcomes_nil (size : Nat) (last : List ListedBlob) :
    outcomes size ⟨[], last⟩ = (allPages size last).map .ok := rfl

end Runs

/-! ## One page -/

namespace Pager

variable {size : Nat} (hs : 1 ≤ size)
include hs

/-- The next page is the first outcome, and the outcomes of what is left are the others. -/
theorem next_of_outcomes (items : List ListingItem) :
    items = [] ∧ (Runs.of items).outcomes size = [] ∨
      ∃ outcome rest, items ≠ [] ∧
        (⟨size, items⟩ : Pager).next = (outcome.map some, ⟨size, rest⟩) ∧
        (Runs.of items).outcomes size = outcome :: (Runs.of rest).outcomes size := by
  rcases items_eq_or items with ⟨blobs, rfl⟩ | ⟨blobs, e, rest, rfl⟩
  · by_cases hne : blobs = []
    · subst hne
      refine .inl ⟨rfl, ?_⟩
      rw [Runs.of_map_ok, Runs.outcomes_nil, allPages_nil hs, List.map_nil]
    · refine .inr ⟨.ok (blobs.take size), (blobs.drop size).map .ok, ?_, ?_, ?_⟩
      · rwa [Ne, List.map_eq_nil_iff]
      · exact next_of_collect (collect_map_ok size blobs) (take_ne_nil hs hne)
      · rw [Runs.of_map_ok, Runs.of_map_ok, Runs.outcomes_nil, Runs.outcomes_nil,
          allPages_of_ne_nil hs hne, List.map_cons]
  · have hnil : blobs.map .ok ++ .error e :: rest ≠ [] := by
      rw [Ne, List.append_eq_nil_iff]
      exact fun h => absurd h.2 nofun
    by_cases hlt : blobs.length < size
    · refine .inr ⟨.error e, rest, hnil, ?_, ?_⟩
      · unfold next
        simp only [collect_failure hlt]
        rfl
      · rw [Runs.of_map_ok_append, Runs.outcomes_cons, fullPages_of_lt hlt]
        rfl
    · have hle : size ≤ blobs.length := Nat.le_of_not_lt hlt
      have hne : blobs ≠ [] := by
        rintro rfl
        rw [List.length_nil] at hle
        omega
      refine .inr ⟨.ok (blobs.take size), (blobs.drop size).map .ok ++ .error e :: rest, hnil, ?_,
        ?_⟩
      · exact next_of_collect (collect_map_ok_append hle _) (take_ne_nil hs hne)
      · rw [Runs.of_map_ok_append, Runs.of_map_ok_append, Runs.outcomes_cons, Runs.outcomes_cons,
          fullPages_of_le hs hle, List.map_cons, List.cons_append]

end Pager

/-! ## Calls in any order -/

/-- What a pager answers. -/
inductive PagerAnswer
  | more (b : Bool)
  | page (page : Except BlobError (Option Page))

/-- What a scroll makes of the answer of its pager. -/
def PagerAnswer.ofScroll : PagerAnswer → ScrollAnswer
  | .more b => .more b
  | .page (.ok (some blobs)) => .batch (.ok blobs)
  | .page (.ok none) => .batch (.error .noSuchElement)
  | .page (.error e) => .batch (.error e)

namespace Pager

/-- One call of a pager; what a scroll calls `hasNext` is `hasMore` here. -/
def call (p : Pager) : ScrollCall → PagerAnswer × Pager
  | .hasNext => (.more p.hasMore, p)
  | .next =>
    let (page, p) := p.next
    (.page page, p)

/-- Calls of a pager, one after the other. -/
def calls (p : Pager) : List ScrollCall → List PagerAnswer
  | [] => []
  | c :: cs => (p.call c).1 :: (p.call c).2.calls cs

end Pager

namespace ScrollCall

/-- Whether the call asks for a page. -/
def takesPage : ScrollCall → Bool
  | hasNext => false
  | next => true

/-- How many pages were asked for before the call with this index. -/
def pagesBefore (cs : List ScrollCall) (index : Nat) : Nat := (cs.take index).countP takesPage

/-- What a pager answers whose pages come to these outcomes, when `taken` of them were asked for. -/
def onPager (outcomes : List (Except BlobError Page)) (taken : Nat) : ScrollCall → PagerAnswer
  | hasNext => .more (decide (taken < outcomes.length))
  | next => .page ((outcomes[taken]?.map (·.map some)).getD (.ok none))

/-- What a scroll answers whose pages come to these outcomes, when `taken` of them were asked
for. -/
def onScroll (outcomes : List (Except BlobError Page)) (taken : Nat) : ScrollCall → ScrollAnswer
  | hasNext => .more (decide (taken < outcomes.length))
  | next => .batch (outcomes[taken]?.getD (.error .noSuchElement))

theorem pagesBefore_hasNext (cs : List ScrollCall) (k : Nat) :
    pagesBefore (hasNext :: cs) (k + 1) = pagesBefore cs k := by
  unfold pagesBefore
  rw [List.take_succ_cons, List.countP_cons_of_neg (by decide)]

theorem pagesBefore_next (cs : List ScrollCall) (k : Nat) :
    pagesBefore (next :: cs) (k + 1) = pagesBefore cs k + 1 := by
  unfold pagesBefore
  rw [List.take_succ_cons, List.countP_cons_of_pos (by decide)]

theorem onPager_cons (outcome : Except BlobError Page) (outcomes : List (Except BlobError Page))
    (taken : Nat) (c : ScrollCall) :
    c.onPager (outcome :: outcomes) (taken + 1) = c.onPager outcomes taken := by
  cases c with
  | hasNext =>
    unfold onPager
    simp only [List.length_cons, Nat.add_lt_add_iff_right]
  | next => rfl

/-- Behind the last outcome it does not matter how many pages were asked for. -/
theorem onPager_nil (taken : Nat) (c : ScrollCall) : c.onPager [] taken = c.onPager [] 0 := by
  cases c with
  | hasNext => rfl
  | next => rfl

theorem ofScroll_onPager (outcomes : List (Except BlobError Page)) (taken : Nat) (c : ScrollCall) :
    (c.onPager outcomes taken).ofScroll = c.onScroll outcomes taken := by
  cases c with
  | hasNext => rfl
  | next =>
    unfold onPager onScroll
    cases outcomes[taken]? with
    | none => rfl
    | some outcome => cases outcome <;> rfl

/-- A scroll is at its end, or has the failure of ended scrolls as the next one of its listing. -/
theorem next_ended_iff (outcomes : List (Except BlobError Page)) (taken : Nat) :
    some (next.onScroll outcomes taken) = some (.batch (.error .noSuchElement)) ↔
      some (hasNext.onScroll outcomes taken) = some (.more false) ∨
        outcomes[taken]? = some (.error .noSuchElement) := by
  unfold onScroll
  simp only [Option.some.injEq, ScrollAnswer.batch.injEq, ScrollAnswer.more.injEq,
    decide_eq_false_iff_not, ← List.getElem?_eq_none_iff, Nat.not_lt]
  cases outcomes[taken]? <;> simp

end ScrollCall

open ScrollCall (pagesBefore)

namespace Pager

variable {size : Nat}

theorem next_nil : (⟨size, []⟩ : Pager).next = (.ok none, ⟨size, []⟩) := by
  unfold next
  rw [show collect size [] = (.ok [], []) by cases size <;> rfl]

theorem call_nil (c : ScrollCall) :
    (⟨size, []⟩ : Pager).call c = (c.onPager [] 0, ⟨size, []⟩) := by
  cases c with
  | hasNext => rfl
  | next =>
    unfold call
    rw [next_nil]
    rfl

theorem rest_call (p : Pager) (c : ScrollCall) :
    (p.call c).2 = ⟨p.pageSize, (p.call c).2.rest⟩ := by
  cases c with
  | hasNext => rfl
  | next =>
    have hsize := p.pageSize_next
    unfold call
    rw [← hsize]

/-- The answer to each call of a pager goes by the number of pages that were asked for before. -/
theorem calls_eq (hs : 1 ≤ size) (items : List ListingItem) (cs : List ScrollCall) :
    (⟨size, items⟩ : Pager).calls cs =
      cs.mapIdx fun k c => c.onPager ((Runs.of items).outcomes size) (pagesBefore cs k) := by
  induction cs generalizing items with
  | nil => rfl
  | cons c cs ih =>
    rw [List.mapIdx_cons, calls]
    rcases next_of_outcomes hs items with ⟨rfl, hout⟩ | ⟨outcome, rest, hne, hnext, hout⟩
    · rw [call_nil, ih, hout]
      simp only [ScrollCall.onPager_nil]
    · cases c with
      | hasNext =>
        have hmore : (⟨size, items⟩ : Pager).hasMore = true := by
          unfold hasMore
          rwa [Bool.not_eq_true', List.isEmpty_eq_false_iff]
        simp only [call, hmore, ih, ScrollCall.pagesBefore_hasNext, hout]
        rfl
      | next =>
        simp only [call, hnext, ih, ScrollCall.pagesBefore_next, hout, ScrollCall.onPager_cons]
        rfl

end Pager

namespace Scroll

variable {id : String} {size : Nat} {w : World}

/-- A scroll over a listing that was taken answers by its pager. -/
theorem call_ofScroll (items : List ListingItem) (c : ScrollCall) :
    (⟨id, size, .taken items⟩ : Scroll).call w c =
      ((((⟨size, items⟩ : Pager).call c).1.ofScroll,
        ⟨id, size, .taken ((⟨size, items⟩ : Pager).call c).2.rest⟩), w) := by
  cases c with
  | hasNext => rfl
  | next =>
    unfold call next pager moved Pager.call
    cases hnext : (⟨size, items⟩ : Pager).next with
    | mk page p => rcases page with e | ⟨_ | page⟩ <;> simp only [hnext] <;> rfl

theorem calls_ofScroll (items : List ListingItem) (cs : List ScrollCall) :
    (⟨id, size, .taken items⟩ : Scroll).calls w cs =
      (((⟨size, items⟩ : Pager).calls cs).map PagerAnswer.ofScroll, w) := by
  induction cs generalizing items with
  | nil => rfl
  | cons c cs ih =>
    unfold calls
    rw [call_ofScroll]
    simp only [ih]
    rw [Pager.calls, List.map_cons, Pager.rest_call]

/-- The answer to each call of a scroll goes by the number of pages that were asked for before. -/
theorem calls_eq (hs : 1 ≤ size) (items : List ListingItem) (cs : List ScrollCall) :
    (⟨id, size, .taken items⟩ : Scroll).calls w cs =
      (cs.mapIdx fun k c => c.onScroll ((Runs.of items).outcomes size) (pagesBefore cs k), w) := by
  rw [calls_ofScroll, Pager.calls_eq hs]
  congr 1
  refine List.ext_getElem? fun k => ?_
  rw [List.getElem?_map, List.getElem?_mapIdx, List.getElem?_mapIdx, Option.map_map]
  congr 1
  funext c
  exact ScrollCall.ofScroll_onPager _ _ c

/-- A scroll over a remote store is one over the listing that its first call takes. -/
theorem call_ofRemote (r : RemoteStore) (pageSize : Nat) (w : World) (c : ScrollCall) :
    (ofRemote r pageSize).call w c =
      (ofListing r.catalog.id (r.list w).1 pageSize).call (r.list w).2 c := by
  cases c with
  | hasNext => rfl
  | next => rfl

/-- What the last of some calls is answered. -/
theorem getLast?_calls (hs : 1 ≤ size) (items : List ListingItem) (cs : List ScrollCall)
    (c : ScrollCall) :
    ((⟨id, size, .taken items⟩ : Scroll).calls w (cs ++ [c])).1.getLast? =
      some (c.onScroll ((Runs.of items).outcomes size) (cs.countP ScrollCall.takesPage)) := by
  rw [calls_eq hs, List.mapIdx_append, List.mapIdx_singleton, List.getLast?_concat]
  unfold pagesBefore
  rw [Nat.zero_add, List.take_left']
  rfl

/-- The third blob does not fill a page and is lost with the failure behind it. -/
example (a b c d : ListedBlob) (e : BlobError) :
    (Runs.of [.ok a, .ok b, .ok c, .error e, .ok d]).outcomes 2 =
      [.ok [a, b], .error e, .ok [d]] := by
  cbv

end Scroll

end BlobVault
