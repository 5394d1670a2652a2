import BlobVault.Error

/-!
# Listings in pages

A listing is a sequence of blobs and failures. A pager hands it out in pages: `hasMore` looks ahead
without consuming, `next` collects the next page. A failure takes the blobs collected so far for its
page with it, and the listing goes on behind it. `readAll` reads pages until the listing ends or
fails.
-/

namespace BlobVault

/-- A blob in a listing: its key inside the namespace, and its size. -/
structure ListedBlob where
  key : String
  size : Nat
  deriving DecidableEq, Repr

/-- What a listing yields next. -/
abbrev ListingItem := Except BlobError ListedBlob

/-- Blobs that are handed out together. -/
abbrev Page := List ListedBlob

/-- What is left of a listing, and how many blobs go on a page. -/
structure Pager where
  pageSize : Nat
  rest : List ListingItem

namespace Pager

/-- A pager over a listing; a page holds one blob at least. Pages are of a size that memory has room
for: a blob takes 32 bytes of the page, and no page has more than `2 ^ 63 - 1` bytes. -/
def ofListing (items : List ListingItem) (pageSize : Nat) : Pager := ⟨max pageSize 1, items⟩

/-- Whether a blob or a failure is left. -/
def hasMore (p : Pager) : Bool := !p.rest.isEmpty

/-- Takes up to some number of blobs, and gives what is left. -/
def collect : Nat → List ListingItem → Except BlobError Page × List ListingItem
  | 0, items => (.ok [], items)
  | _ + 1, [] => (.ok [], [])
  | _ + 1, .error e :: items => (.error e, items)
  | n + 1, .ok blob :: items =>
    match collect n items with
    | (.ok page, rest) => (.ok (blob :: page), rest)
    | (.error e, rest) => (.error e, rest)

/-- The next page, none at the end of the listing. -/
def next (p : Pager) : Except BlobError (Option Page) × Pager :=
  match collect p.pageSize p.rest with
  | (.ok [], rest) => (.ok none, { p with rest })
  | (.ok page, rest) => (.ok (some page), { p with rest })
  | (.error e, rest) => (.error e, { p with rest })

theorem length_collect_le (n : Nat) (items : List ListingItem) :
    (collect n items).2.length ≤ items.length := by
  induction n generalizing items with
  | zero => simp [collect]
  | succ n ih =>
    match items with
    | [] => simp [collect]
    | .error e :: items => simp [collect]
    | .ok blob :: items =>
      have h := ih items
      unfold collect
      split <;> rename_i heq <;> rw [heq] at h <;> simp only [List.length_cons] at h ⊢ <;> omega

theorem length_collect_lt {n : Nat} {items : List ListingItem} {page : Page}
    {rest : List ListingItem} (h : collect n items = (.ok page, rest)) (hne : page ≠ []) :
    rest.length < items.length := by
  match n, items with
  | 0, _ => simp only [collect, Prod.mk.injEq, Except.ok.injEq] at h; exact absurd h.1.symm hne
  | _ + 1, [] => simp only [collect, Prod.mk.injEq, Except.ok.injEq] at h; exact absurd h.1.symm hne
  | _ + 1, .error e :: _ => simp [collect] at h
  | n + 1, .ok blob :: items =>
    have hle := length_collect_le n items
    unfold collect at h
    split at h <;> rename_i heq
    · rw [heq] at hle
      simp only [Prod.mk.injEq] at h
      rw [← h.2]
      simp only [List.length_cons] at hle ⊢
      omega
    · simp at h

theorem length_rest_next_lt {p q : Pager} {page : Page} (h : p.next = (.ok (some page), q)) :
    q.rest.length < p.rest.length := by
  unfold next at h
  split at h <;> rename_i heq
  · simp at h
  · simp only [Prod.mk.injEq] at h
    rw [← h.2]
    refine length_collect_lt heq ?_
    intro hnil
    subst hnil
    simp_all
  · simp at h

/-- All pages up to the end of the listing or its first failure, and the failure. -/
def readAll (p : Pager) : List Page × Option BlobError :=
  match _h : p.next with
  | (.error e, _) => ([], some e)
  | (.ok none, _) => ([], none)
  | (.ok (some page), q) =>
    let (pages, failure?) := q.readAll
    (page :: pages, failure?)
termination_by p.rest.length
decreasing_by exact length_rest_next_lt _h

end Pager

/-- The number of blobs on a page unless another is asked for. -/
def defaultPageSize : Nat := 1000

end BlobVault
