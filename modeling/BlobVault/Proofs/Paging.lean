import BlobVault.Paging
import Mathlib

/-!
# Reading a listing page by page

A listing is either free of failures, or a run of blobs in front of a failure
(`items_eq_or`). `readAll` gives back all blobs of the first kind in order, whatever the size of
the pages, and ends with the failure of the second (`readAll_ofListing`, `readAll_failure`).
-/

namespace BlobVault

namespace Pager

/-- A listing is a run of blobs, or a run of blobs in front of its first failure. -/
theorem items_eq_or (items : List ListingItem) :
    (∃ blobs : List ListedBlob, items = blobs.map .ok) ∨
      ∃ (blobs : List ListedBlob) (e : BlobError) (rest : List ListingItem),
        items = blobs.map .ok ++ .error e :: rest := by
  induction items with
  | nil => exact .inl ⟨[], rfl⟩
  | cons item items ih =>
    cases item with
    | error e => exact .inr ⟨[], e, items, rfl⟩
    | ok blob =>
      rcases ih with ⟨blobs, rfl⟩ | ⟨blobs, e, rest, rfl⟩
      · exact .inl ⟨blob :: blobs, rfl⟩
      · exact .inr ⟨blob :: blobs, e, rest, rfl⟩

/-! ## One page -/

theorem collect_map_ok (n : Nat) (blobs : List ListedBlob) :
    collect n (blobs.map .ok) = (.ok (blobs.take n), (blobs.drop n).map .ok) := by
  induction n generalizing blobs with
  | zero => rfl
  | succ n ih =>
    cases blobs with
    | nil => rfl
    | cons blob blobs =>
      rw [List.map_cons, collect, ih]
      rfl

theorem collect_map_ok_append {n : Nat} {blobs : List ListedBlob} (h : n ≤ blobs.length)
    (rest : List ListingItem) :
    collect n (blobs.map .ok ++ rest) = (.ok (blobs.take n), (blobs.drop n).map .ok ++ rest) := by
  induction n generalizing blobs with
  | zero => rfl
  | succ n ih =>
    cases blobs with
    | nil => simp at h
    | cons blob blobs =>
      rw [List.map_cons, List.cons_append, collect, ih (Nat.le_of_succ_le_succ h)]
      rfl

theorem collect_failure {n : Nat} {blobs : List ListedBlob} (h : blobs.length < n) (e : BlobError)
    (rest : List ListingItem) :
    collect n (blobs.map .ok ++ .error e :: rest) = (.error e, rest) := by
  induction n generalizing blobs with
  | zero => simp at h
  | succ n ih =>
    cases blobs with
    | nil => rfl
    | cons blob blobs =>
      rw [List.map_cons, List.cons_append, collect, ih (Nat.lt_of_succ_lt_succ h)]

/-! ## All pages -/

theorem readAll_error {p q : Pager} {e : BlobError} (h : p.next = (.error e, q)) :
    p.readAll = ([], some e) := by
  rw [readAll]
  split <;> simp_all

theorem readAll_none {p q : Pager} (h : p.next = (.ok none, q)) : p.readAll = ([], none) := by
  rw [readAll]
  split <;> simp_all

theorem readAll_some {p q : Pager} {page : Page} (h : p.next = (.ok (some page), q)) :
    p.readAll = (page :: q.readAll.1, q.readAll.2) := by
  rw [readAll]
  split <;> simp_all

theorem pageSize_next (p : Pager) : p.next.2.pageSize = p.pageSize := by
  unfold next
  split <;> rfl

/-- Pages that end without a failure end because nothing is left. -/
theorem next_of_readAll_nil {p : Pager} (h : p.readAll = ([], none)) :
    ∃ rest, p.next = (.ok none, ⟨p.pageSize, rest⟩) := by
  have hsize := p.pageSize_next
  cases hnext : p.next with
  | mk page q =>
    rw [hnext] at hsize
    match page with
    | .error e =>
      rw [readAll_error hnext] at h
      exact absurd (Prod.mk.inj h).2 nofun
    | .ok none =>
      refine ⟨q.rest, ?_⟩
      rw [← hsize]
    | .ok (some page) =>
      rw [readAll_some hnext] at h
      exact absurd (Prod.mk.inj h).1 nofun

/-- The first of all pages is the next one. -/
theorem next_of_readAll_cons {p : Pager} {page : Page} {pages : List Page}
    {failure? : Option BlobError} (h : p.readAll = (page :: pages, failure?)) :
    ∃ rest, p.next = (.ok (some page), ⟨p.pageSize, rest⟩) ∧
      (⟨p.pageSize, rest⟩ : Pager).readAll = (pages, failure?) := by
  have hsize := p.pageSize_next
  cases hnext : p.next with
  | mk next q =>
    rw [hnext] at hsize
    match next with
    | .error e =>
      rw [readAll_error hnext] at h
      exact absurd (Prod.mk.inj h).1 nofun
    | .ok none =>
      rw [readAll_none hnext] at h
      exact absurd (Prod.mk.inj h).1 nofun
    | .ok (some first) =>
      rw [readAll_some hnext] at h
      obtain ⟨hpages, hfailure⟩ := Prod.mk.inj h
      obtain ⟨rfl, rfl⟩ := List.cons.inj hpages
      refine ⟨q.rest, ?_, ?_⟩
      · rw [← hsize]
      · rw [← hsize, ← hfailure]

theorem next_of_collect {p : Pager} {page : Page} {rest : List ListingItem}
    (h : collect p.pageSize p.rest = (.ok page, rest)) (hne : page ≠ []) :
    p.next = (.ok (some page), { p with rest }) := by
  unfold next
  rw [h]
  cases page with
  | nil => exact absurd rfl hne
  | cons blob page => rfl

/-- The pages of a listing without failures hold its blobs, in order. -/
theorem readAll_map_ok {size : Nat} (hs : 1 ≤ size) (blobs : List ListedBlob) :
    (⟨size, blobs.map .ok⟩ : Pager).readAll.1.flatten = blobs ∧
      (⟨size, blobs.map .ok⟩ : Pager).readAll.2 = none := by
  induction hn : blobs.length using Nat.strongRecOn generalizing blobs with
  | _ n ih =>
    cases blobs with
    | nil =>
      rw [readAll_none (q := ⟨size, []⟩)]
      · exact ⟨rfl, rfl⟩
      · unfold next
        rw [show collect size (([] : List ListedBlob).map .ok) = _ from collect_map_ok size []]
        simp
    | cons blob blobs =>
      have hne : (blob :: blobs).take size ≠ [] := by
        cases size with
        | zero => omega
        | succ size => simp
      have hnext := next_of_collect (p := ⟨size, (blob :: blobs).map .ok⟩)
        (collect_map_ok size (blob :: blobs)) hne
      rw [readAll_some hnext]
      have hlt : ((blob :: blobs).drop size).length < n := by
        rw [List.length_drop, ← hn, List.length_cons]
        omega
      obtain ⟨h1, h2⟩ := ih _ hlt ((blob :: blobs).drop size) rfl
      refine ⟨?_, h2⟩
      rw [List.flatten_cons, h1, List.take_append_drop]

/-- Reading a listing with a failure ends with the first one. -/
theorem readAll_failure {size : Nat} (hs : 1 ≤ size) (blobs : List ListedBlob) (e : BlobError)
    (rest : List ListingItem) :
    (⟨size, blobs.map .ok ++ .error e :: rest⟩ : Pager).readAll.2 = some e := by
  induction hn : blobs.length using Nat.strongRecOn generalizing blobs with
  | _ n ih =>
    by_cases h : blobs.length < size
    · rw [readAll_error (e := e) (q := ⟨size, rest⟩)]
      unfold next
      rw [show collect size (blobs.map .ok ++ .error e :: rest) = _ from collect_failure h e rest]
    · have hle : size ≤ blobs.length := by omega
      have hne : blobs.take size ≠ [] := by
        intro hnil
        have hlen := congrArg List.length hnil
        rw [List.length_take, List.length_nil] at hlen
        omega
      have hnext := next_of_collect (p := ⟨size, blobs.map .ok ++ .error e :: rest⟩)
        (collect_map_ok_append hle (.error e :: rest)) hne
      rw [readAll_some hnext]
      refine ih _ ?_ (blobs.drop size) rfl
      rw [List.length_drop, ← hn]
      omega

theorem mem_of_collect {n : Nat} {items rest : List ListingItem} {page : Page}
    (h : collect n items = (.ok page, rest)) :
    (∀ blob ∈ page, .ok blob ∈ items) ∧ ∀ item ∈ rest, item ∈ items := by
  induction n generalizing items page rest with
  | zero =>
    obtain ⟨hpage, rfl⟩ := Prod.mk.inj h
    obtain rfl := Except.ok.inj hpage
    exact ⟨fun _ hblob => absurd hblob List.not_mem_nil, fun _ hitem => hitem⟩
  | succ n ih =>
    match items with
    | [] =>
      obtain ⟨hpage, rfl⟩ := Prod.mk.inj h
      obtain rfl := Except.ok.inj hpage
      exact ⟨fun _ hblob => absurd hblob List.not_mem_nil, fun _ hitem => hitem⟩
    | .error e :: items => exact absurd (Prod.mk.inj h).1 nofun
    | .ok first :: items =>
      cases hrest : collect n items with
      | mk page? rest' =>
        unfold collect at h
        rw [hrest] at h
        cases page? with
        | error e => exact absurd (Prod.mk.inj h).1 nofun
        | ok page' =>
          obtain ⟨hpage, rfl⟩ := Prod.mk.inj h
          obtain rfl := Except.ok.inj hpage
          obtain ⟨hblobs, hitems⟩ := ih hrest
          refine ⟨fun blob hblob => ?_,
            fun item hitem => List.mem_cons_of_mem _ (hitems item hitem)⟩
          rcases List.mem_cons.1 hblob with rfl | hblob
          · exact List.mem_cons_self
          · exact List.mem_cons_of_mem _ (hblobs blob hblob)

/-- The pages of a listing have nothing that the listing does not have. -/
theorem mem_of_mem_readAll {p : Pager} {blob : ListedBlob} (h : blob ∈ p.readAll.1.flatten) :
    .ok blob ∈ p.rest := by
  induction hn : p.rest.length using Nat.strongRecOn generalizing p with
  | _ n ih =>
    cases hnext : p.next with
    | mk page? q =>
      match page? with
      | .error e =>
        rw [readAll_error hnext] at h
        exact absurd h List.not_mem_nil
      | .ok none =>
        rw [readAll_none hnext] at h
        exact absurd h List.not_mem_nil
      | .ok (some page) =>
        rw [readAll_some hnext, List.flatten_cons, List.mem_append] at h
        have hlt := length_rest_next_lt hnext
        obtain ⟨hblobs, hitems⟩ : (∀ blob ∈ page, .ok blob ∈ p.rest) ∧
            ∀ item ∈ q.rest, item ∈ p.rest := by
          cases hcollect : collect p.pageSize p.rest with
          | mk page'? rest =>
            unfold next at hnext
            rw [hcollect] at hnext
            match page'? with
            | .error e => exact absurd (Prod.mk.inj hnext).1 nofun
            | .ok [] => exact absurd (Except.ok.inj (Prod.mk.inj hnext).1) nofun
            | .ok (first :: others) =>
              obtain ⟨hpage, rfl⟩ := Prod.mk.inj hnext
              obtain rfl := Option.some.inj (Except.ok.inj hpage)
              exact mem_of_collect hcollect
        rcases h with hpage | hrest
        · exact hblobs blob hpage
        · exact hitems _ (ih _ (hn ▸ hlt) hrest rfl)

theorem readAll_ofListing (blobs : List ListedBlob) (pageSize : Nat) :
    (ofListing (blobs.map .ok) pageSize).readAll.1.flatten = blobs ∧
      (ofListing (blobs.map .ok) pageSize).readAll.2 = none :=
  readAll_map_ok (Nat.le_max_right _ _) blobs

end Pager

end BlobVault
