import BlobVault.Proofs.Caching.Run
import BlobVault.Proofs.Catalog
import BlobVault.Proofs.PlainStore

/-!
# Answers without faults

Where no fault stands in front of a store without a cache, what it answers about a key is a function
of what it holds under the key: presence, size, streams and downloads.

1. `PlainStore.asked?`: what a read of a key is about, the range of an annotated key included.
2. `contains_run`, `stream_run`, `readInto_run`: the answers of memory stores and remote stores.
3. `World.answer`: an answer without the world that is left, and the answers of reads.
-/

namespace BlobVault

/-- The part of some content that a range asks for; none if it starts past the end. -/
def ByteRange.part? (range? : Option ByteRange) (content : Bytes) : Option Bytes :=
  match range? with
  | none => some content
  | some range => if range.start.toNat < content.length then some (range.window content) else none

namespace PlainStore

/-- Whether the store takes ranges in keys. -/
def allowsRange : PlainStore → Bool
  | memory m => m.allowsRange
  | remote r => r.allowsRange

/-- The key of the blob that a read is about, and the range that it asks for. -/
def target (p : PlainStore) (key : String) : String × Option ByteRange :=
  if p.allowsRange then ByteRange.splitKey key else (key, none)

/-- What a read of a key gets. -/
def asked? (p : PlainStore) (w : World) (key : String) : Option Bytes :=
  (p.hold? w (p.target key).1).bind (ByteRange.part? (p.target key).2)

variable {p : PlainStore} {w : World} {key : String}

theorem target_of_splitKey (h : ByteRange.splitKey key = (key, none)) :
    p.target key = (key, none) := by
  unfold target
  rw [h, ite_self]

/-- A key without a range asks for all that is held. -/
theorem asked?_of_target (h : p.target key = (key, none)) : p.asked? w key = p.hold? w key := by
  unfold asked?
  rw [h]
  cases p.hold? w key <;> rfl

theorem asked?_of_splitKey (h : ByteRange.splitKey key = (key, none)) :
    p.asked? w key = p.hold? w key := asked?_of_target (target_of_splitKey h)

/-- Only a key that carries a range asks for one, and only of a store that takes ranges. -/
theorem target_of_not_isAnnotated
    (h : p.allowsRange = true → ¬ ByteRange.isAnnotated key = true) :
    p.target key = (key, none) := by
  unfold target
  split
  · rename_i hallows
    exact ByteRange.splitKey_of_not_isAnnotated (h hallows)
  · rfl

/-- What is left of a plain key without its range is plain. -/
theorem plainChars_target (p : PlainStore) (h : PlainChars key.toList) :
    PlainChars (p.target key).1.toList := by
  unfold target
  split
  · exact ByteRange.plainChars_splitKey h
  · exact h

theorem contains_run (hw : p.Quiet w) (key : String) :
    ∃ v, p.toStore.contains key w = .ok (p.hold? w key).isSome v ∧ w.Looks v := by
  obtain ⟨_, v, hrun, hlooks, rfl⟩ := ((contains_spec hw.honest key).mono (fun _ _ h => h)
    (F := NoError) fun _ _ h => h.2 hw).exists_ok
  exact ⟨v, hrun, hlooks⟩

theorem stream_run (hw : p.Quiet w) (key : String) :
    ∃ v, p.toStore.openStream key w =
        .ok ((p.hold? w key).map fun content => .delivery ⟨content, none⟩) v ∧ w.Looks v := by
  obtain ⟨_, v, hrun, hlooks, rfl⟩ := (stream_spec hw key).exists_ok
  exact ⟨v, hrun, hlooks⟩

/-- Opening a blob and reading it to its end. -/
theorem perform_stream_run (hw : p.Quiet w) (key : String) :
    ∃ v, p.toStore.perform (.stream key) w =
        .ok (.content ((p.hold? w key).map fun content => (content, none))) v ∧ w.Looks v := by
  obtain ⟨v, hrun, hlooks⟩ := stream_run hw key
  refine ⟨v, ?_, hlooks⟩
  cases hhold : p.hold? w key with
  | none =>
    rw [hhold] at hrun
    exact run_bind_ok hrun _
  | some content =>
    rw [hhold] at hrun
    exact run_bind_ok hrun _

end PlainStore

namespace RemoteStore

variable {r : RemoteStore} {w : World}

theorem size?_run (hw : (w.container r.container).Quiet) (key : String) :
    ∃ v, r.size? key w = .ok (((PlainStore.remote r).hold? w key).map List.length) v ∧
      w.Looks v :=
  PlainStore.size?_catalog (p := .remote r) hw key

theorem fetch_run (hw : (w.container r.container).Quiet) (key : String)
    (range? : Option ByteRange) :
    ∃ v, r.find? (Container.fetch (r.pathFor key) range?) w =
        .ok (((PlainStore.remote r).hold? w key).map fun content =>
          ⟨Container.part range? content, none⟩) v ∧ w.Looks v := by
  have hfetch := (r.find?_spec (Container.fetch_spec (w.container r.container) (r.pathFor key)
    range?)).mono (R := fun delivery? v => w.Looks v ∧ delivery? =
      ((PlainStore.remote r).hold? w key).map fun content => ⟨Container.part range? content, none⟩)
    (F := NoError) ?_ ?_
  · obtain ⟨_, v, hrun, hlooks, rfl⟩ := hfetch.exists_ok
    exact ⟨v, hrun, hlooks⟩
  · rintro delivery? v ⟨d, rfl, ⟨⟨bytes, failure?⟩, rfl, hd, content, hfind, hbytes⟩ |
      ⟨rfl, path, hd, h⟩⟩
    · have hhold : (PlainStore.remote r).hold? w key = some content := hfind
      refine ⟨.of_container hd, ?_⟩
      rcases hbytes with ⟨hnone, hall⟩ | ⟨-, hquiet⟩
      · obtain rfl : failure? = none := hnone
        obtain rfl : bytes = Container.part range? content := hall
        rw [hhold]
        rfl
      · exact absurd hw hquiet
    · refine ⟨.of_container hd, ?_⟩
      rcases h with ⟨hnone, -⟩ | hstruck
      · have hhold : (PlainStore.remote r).hold? w key = none := hnone
        rw [hhold]
        rfl
      · exact absurd hw hstruck.not_quiet
  · rintro e v ⟨d, cause, rfl, ⟨hd, ⟨-, rfl⟩ | hstruck⟩, hne, -⟩
    · exact hne _ rfl
    · exact hstruck.not_quiet hw

/-- What a fetch brings is put into the destination. -/
theorem fetch_save_run (hw : (w.container r.container).Quiet) (key : String)
    (range? : Option ByteRange) (dest : LocalPath) :
    ∃ v, w.Looks v ∧
      (do
        match ← r.find? (Container.fetch (r.pathFor key) range?) with
        | none => return false
        | some d =>
          save d dest
          return true : Action Bool) w =
        match (PlainStore.remote r).hold? w key with
        | none => .ok false v
        | some content => (do
            putFile dest (Container.part range? content)
            return true : Action Bool) v := by
  obtain ⟨v, hfetch, hv⟩ := fetch_run hw key range?
  refine ⟨v, hv, (run_bind_ok hfetch _).trans ?_⟩
  cases (PlainStore.remote r).hold? w key with
  | none => rfl
  | some content =>
    show (save ⟨Container.part range? content, none⟩ dest >>= fun _ => pure true) v = _
    unfold save
    rw [bind_assoc]
    rfl

/-- A download puts what the key asks for into the destination. -/
theorem readInto_run (hw : (w.container r.container).Quiet) (key : String) (dest : LocalPath) :
    ∃ v, w.Looks v ∧ r.readInto key dest w =
      match (PlainStore.remote r).asked? w key with
      | none => .ok false v
      | some content => (do
          putFile dest content
          return true : Action Bool) v := by
  obtain ⟨base, range?, htarget⟩ : ∃ base range?, (PlainStore.remote r).target key =
    (base, range?) := ⟨_, _, rfl⟩
  have hsplit : (if r.allowsRange then ByteRange.splitKey key else (key, none)) =
    (base, range?) := htarget
  unfold readInto PlainStore.asked?
  rw [hsplit, htarget]
  cases range? with
  | none =>
    obtain ⟨v, hv, hrun⟩ := fetch_save_run hw base none dest
    refine ⟨v, hv, hrun.trans ?_⟩
    cases (PlainStore.remote r).hold? w base <;> rfl
  | some range =>
    obtain ⟨u, hsize, hu⟩ := size?_run hw base
    cases hhold : (PlainStore.remote r).hold? w base with
    | none =>
      rw [hhold] at hsize
      exact ⟨u, hu, run_bind_ok hsize _⟩
    | some content =>
      rw [hhold] at hsize
      dsimp only [Option.bind_some, ByteRange.part?]
      by_cases hpast : content.length ≤ range.start.toNat
      · rw [if_neg (by omega)]
        exact ⟨u, hu, (run_bind_ok hsize _).trans (congrFun (if_pos hpast) u)⟩
      · rw [if_pos (by omega)]
        -- the bytes are asked for in the world that the look at the size left
        obtain ⟨v, hv, hrun⟩ := fetch_save_run (PlainStore.Quiet.of_looks (p := .remote r) hu hw)
          base (some range) dest
        rw [PlainStore.hold?_of_looks hu, hhold] at hrun
        exact ⟨v, hu.trans hv, (run_bind_ok hsize _).trans ((congrFun (if_neg hpast) u).trans hrun)⟩

end RemoteStore

namespace PlainStore

variable {p : PlainStore} {w : World}

/-- A download puts what the key asks for into the destination. -/
theorem readInto_run (hw : p.Quiet w) (key : String) (dest : LocalPath) :
    ∃ v, w.Looks v ∧ p.toStore.readInto key dest w =
      match p.asked? w key with
      | none => .ok false v
      | some content => (do
          putFile dest content
          return true : Action Bool) v := by
  cases p with
  | remote r => exact r.readInto_run hw key dest
  | memory m =>
    have hlookup : m.lookup key w = .ok ((memory m).asked? w key) w := by
      obtain ⟨base, range?, htarget⟩ : ∃ base range?, (memory m).target key = (base, range?) :=
        ⟨_, _, rfl⟩
      have hsplit : (if m.allowsRange then ByteRange.splitKey key else (key, none)) =
        (base, range?) := htarget
      have hfind : m.find? base w = .ok ((memory m).hold? w base) w := rfl
      unfold MemoryStore.lookup asked?
      rw [hsplit, htarget]
      refine (run_bind_ok hfind _).trans ?_
      cases (memory m).hold? w base with
      | none => cases range? <;> rfl
      | some content =>
        cases range? with
        | none => rfl
        | some range =>
          dsimp only [Option.bind_some, ByteRange.part?]
          split <;> rfl
    refine ⟨w, .refl w, (run_bind_ok hlookup _).trans ?_⟩
    cases (memory m).asked? w key <;> rfl

end PlainStore

/-! ## Answers alone -/

/-- The answer of an action, without the world that it leaves. -/
def World.answer {α : Type} (w : World) (x : Action α) : Except BlobError α :=
  match x w with
  | .ok a _ => .ok a
  | .error e _ => .error e

theorem World.answer_of_ok {α : Type} {w v : World} {x : Action α} {a : α} (h : x w = .ok a v) :
    w.answer x = .ok a := by
  unfold answer
  rw [h]

theorem World.answer_of_error {α : Type} {w v : World} {x : Action α} {e : BlobError}
    (h : x w = .error e v) : w.answer x = .error e := by
  unfold answer
  rw [h]

/-- Actions that end alike have one answer and leave related worlds. -/
theorem World.answer_of_endAlike {α : Type} {w v : World} {x y : Action α}
    {R : World → World → Prop} (h : EndAlike x y w v R) :
    v.answer y = w.answer x ∧ R (w.after x) (v.after y) := by
  unfold answer after
  rcases h with ⟨a, w', v', hx, hy, h⟩ | ⟨e, w', v', hx, hy, h⟩
  · rw [hx, hy]
    exact ⟨rfl, h⟩
  · rw [hx, hy]
    exact ⟨rfl, h⟩

/-- A download together with what is in the file after it. -/
def Store.download (store : Store) (key : String) (dest : LocalPath) : Action (Option Bytes) := do
  if ← store.readInto key dest then return some (← fileContent dest) else return none

/-- Whether a blob exists, what is in it and what a download of it gets is the same in both worlds.
The file for the download is outside and takes content in both. -/
structure Store.ReadsAlike (store : Store) (key : String) (w v : World) : Prop where
  contains : v.answer (store.contains key) = w.answer (store.contains key)
  stream : v.answer (store.perform (.stream key)) = w.answer (store.perform (.stream key))
  download : ∀ dest : LocalPath, dest.IsOutside → w.Writable dest → v.Writable dest →
    v.answer (store.download key dest) = w.answer (store.download key dest)

namespace PlainStore

variable {p : PlainStore} {w v : World}

theorem answer_contains (hw : p.Quiet w) (key : String) :
    w.answer (p.toStore.contains key) = .ok (p.hold? w key).isSome := by
  obtain ⟨v, hrun, -⟩ := contains_run hw key
  exact World.answer_of_ok hrun

theorem answer_stream (hw : p.Quiet w) (key : String) :
    w.answer (p.toStore.perform (.stream key)) =
      .ok (.content ((p.hold? w key).map fun content => (content, none))) := by
  obtain ⟨v, hrun, -⟩ := perform_stream_run hw key
  exact World.answer_of_ok hrun

theorem answer_download (hw : p.Quiet w) (key : String) {dest : LocalPath}
    (hwritable : w.Writable dest) :
    w.answer (p.toStore.download key dest) = .ok (p.asked? w key) := by
  obtain ⟨v, hlooks, hrun⟩ := readInto_run hw key dest
  have hv := hlooks.writable hwritable
  cases hasked : p.asked? w key with
  | none =>
    rw [hasked] at hrun
    exact World.answer_of_ok (run_bind_ok hrun _)
  | some content =>
    rw [hasked] at hrun
    have hput : p.toStore.readInto key dest w = .ok true (v.place dest content) :=
      hrun.trans (run_bind_ok (putFile_ok hv content) _)
    have hread := fileContent_ok (World.read_place hv content)
    exact World.answer_of_ok ((run_bind_ok hput _).trans (run_bind_ok hread _))

/-- Stores that hold the same under a key, and under its base, read alike. -/
theorem readsAlike {key : String} (hw : p.Quiet w) (hv : p.Quiet v)
    (hheld : p.hold? v key = p.hold? w key)
    (hbase : p.hold? v (p.target key).1 = p.hold? w (p.target key).1) :
    p.toStore.ReadsAlike key w v where
  contains := by rw [answer_contains hv, answer_contains hw, hheld]
  stream := by rw [answer_stream hv, answer_stream hw, hheld]
  download dest _ hw' hv' := by
    rw [answer_download hv key hv', answer_download hw key hw']
    unfold asked?
    rw [hbase]

end PlainStore

end BlobVault
