import BlobVault.Proofs.Answers
import BlobVault.Proofs.Caching.Operations

/-!
# The ways of copies and moves

A copy goes inside a container, from any store that keeps its blobs there, or else through a local
file: a temporary one, or the entry of a cache. Here are the laws of these ways, and what they come
to for a copy or a move from a store to itself.

The relation `D` stands for what the deletion at the end of a move leaves. It is a parameter of the
laws since a move deletes through the store that the caller named.

1. `RemoteStore.copyInside_spec`: copies inside a container.
2. `copyThrough_spec`, `PlainStore.withFile_spec`: copies through a local file, which take what a
   read of the key gets.
3. `PlainStore.copy_spec`: copies within a store without a cache, where no fault strikes.
4. `CachedStore.copySelf_spec`: copies within a store with a cache.
-/

namespace BlobVault

open KeyStrategy (Accepted)
open FileCache (Fits Turns Adds Thins entryName)

section

variable {D : World → World → Prop} {source : Store} {sourceKey key : String} {move : Bool}

/-- The end of a copy: a move deletes the source. -/
theorem finish_spec {x : World}
    (hdelete : Ensures (source.delete sourceKey) x (fun _ v => D x v) NoError) :
    Ensures (if move then (do let _ ← source.delete sourceKey; return some key)
        else return some key : Action (Option String)) x
      (fun k? v => k? = some key ∧ if move then D x v else v = x) NoError := by
  cases move with
  | true =>
    rw [if_pos rfl]
    refine Ensures.bind hdelete fun _ v hv => Ensures.pure ⟨rfl, ?_⟩
    rwa [if_pos rfl]
  | false =>
    rw [if_neg Bool.false_ne_true]
    refine Ensures.pure ⟨rfl, ?_⟩
    rw [if_neg Bool.false_ne_true]

/-- Copying through a local file, given what is left where the blob is handed on and where there is
none. -/
theorem copyThrough_spec {w : World} {t : TempDir} {use : LocalPath → Action Unit}
    {A B : World → Prop}
    (hfile : Ensures (source.withFile sourceKey t use) w
      (fun done? x => (done? = none ∧ A x) ∨ (done? = some () ∧ B x)) NoError)
    (hdelete : ∀ x, B x → Ensures (source.delete sourceKey) x (fun _ v => D x v) NoError) :
    Ensures (do
        match ← source.withFile sourceKey t use with
        | none => return none
        | some _ =>
          if move then source.delete sourceKey
          return some key : Action (Option String)) w
      (fun k? v => (k? = none ∧ A v) ∨
        (k? = some key ∧ ∃ x, B x ∧ if move then D x v else v = x)) NoError := by
  refine Ensures.bind hfile ?_
  rintro done? x (⟨rfl, hx⟩ | ⟨rfl, hx⟩)
  · exact Ensures.pure (.inl ⟨rfl, hx⟩)
  · refine (finish_spec (hdelete x hx)).mono ?_ fun _ _ h => h
    exact fun k? v h => .inr ⟨h.1, x, hx, h.2⟩

/-- The container copies to a free key, or fails for good. -/
theorem RemoteStore.call_copyToFree_spec (r : RemoteStore) {o : RemoteStore}
    (hsame : o.container = r.container) {w x : World} {content : Bytes}
    (hw : (w.container r.container).Honest) (hx : w.Looks x)
    (hsource : (PlainStore.remote o).hold? w sourceKey = some content)
    (hkey : (PlainStore.remote r).hold? w key = none) :
    Ensures (r.call (Container.copyToFree (o.pathFor sourceKey) (r.pathFor key))) x
      (fun answer y =>
        (answer = .ok () ∧ ((PlainStore.remote r).accept w key content).Looks y) ∨
        ∃ e, answer = .error e ∧ (∀ path, e ≠ .alreadyExists path) ∧ (∀ path, e ≠ .notFound path) ∧
          w.Looks y ∧ ¬ (w.container r.container).Quiet)
      NoError := by
  have hhonest := (hx.containers r.container).1.honest hw
  have hfind : (x.container r.container).find? (r.pathFor key) =
      (PlainStore.remote r).hold? w key := (hx.containers r.container).find? _
  have hfind' : (x.container r.container).find? (o.pathFor sourceKey) =
      (PlainStore.remote o).hold? w sourceKey := by
    rw [(hx.containers r.container).find?, ← hsame]
    rfl
  refine (r.call_spec (Container.copyToFree_spec _ _ _)).mono ?_ fun _ _ h => h
  rintro answer y ⟨d, rfl, ⟨-, rfl, hd, -, content', hcontent, hobjects⟩ | ⟨e, rfl, hd, he⟩⟩
  · rw [hfind', hsource] at hcontent
    obtain rfl := Option.some.inj hcontent
    refine .inl ⟨rfl, ?_⟩
    rw [PlainStore.accept_of_free hkey]
    exact r.put_looks hx hd hobjects
  · rcases he with ⟨hnone, -⟩ | ⟨-, hsome, -⟩ | hstruck
    · rw [hfind', hsource] at hnone
      exact absurd hnone nofun
    · rw [hfind, hkey] at hsome
      exact absurd hsome nofun
    · refine .inr ⟨e, rfl, hstruck.ne_alreadyExists hhonest (.inr rfl),
        hstruck.ne_notFound hhonest (.inr (.inr rfl)),
        hx.trans (.of_container (hd.looks hhonest.effectless)), fun hq => ?_⟩
      exact hstruck.not_quiet ((hx.containers _).1.quiet hq)

/-- Copying inside a container, from any store that keeps its blobs there: the target takes the
content unless it has one. A move deletes the source, unless source and target are one object. -/
theorem RemoteStore.copyInside_spec (r : RemoteStore) {o : RemoteStore}
    (hsame : o.container = r.container) {w : World} (hw : (w.container r.container).Honest)
    (hdelete : ∀ x content, (PlainStore.remote o).hold? w sourceKey = some content →
      ((PlainStore.remote r).accept w key content).Looks x →
      Ensures (source.delete sourceKey) x (fun _ v => D x v) NoError) :
    Ensures (r.copyInside key source o sourceKey move) w
      (fun k? v => (k? = none ∧ (PlainStore.remote o).hold? w sourceKey = none ∧ w.Looks v) ∨
        (k? = some key ∧ ∃ content x, (PlainStore.remote o).hold? w sourceKey = some content ∧
          ((PlainStore.remote r).accept w key content).Looks x ∧
          if move ∧ o.pathFor sourceKey ≠ r.pathFor key then D x v else v = x))
      fun _ v => w.Looks v ∧ ¬ (w.container r.container).Quiet := by
  unfold copyInside
  refine Ensures.bind ((o.size?_spec sourceKey (hsame ▸ hw)).mono (fun _ _ h => h)
    fun _ _ h => hsame ▸ h) ?_
  rintro size? u ⟨hu, rfl⟩
  rw [Option.isNone_map]
  cases hsource : (PlainStore.remote o).hold? w sourceKey with
  | none => exact Ensures.pure (.inl ⟨rfl, rfl, hu⟩)
  | some content =>
    rw [if_neg nofun]
    dsimp only
    rcases eq_or_ne (o.pathFor sourceKey) (r.pathFor key) with hpath | hpath
    · rw [if_pos hpath]
      have hheld : ((PlainStore.remote r).hold? w key).isSome := by
        have : (PlainStore.remote r).hold? w key = (PlainStore.remote o).hold? w sourceKey := by
          unfold PlainStore.hold? PlainStore.address PlainStore.objects
          dsimp only
          rw [hpath, hsame]
        rw [this, hsource]
        rfl
      refine Ensures.pure (.inr ⟨rfl, content, u, rfl, ?_, ?_⟩)
      · rwa [PlainStore.accept_of_held hheld]
      · rw [if_neg fun h => h.2 hpath]
    · rw [if_neg hpath]
      have hmove : (move = true ∧ o.pathFor sourceKey ≠ r.pathFor key) ↔ move = true :=
        and_iff_left hpath
      simp only [hmove]
      have hhonest := (hu.containers r.container).1.honest hw
      refine Ensures.bind ((r.size?_spec key hhonest).mono (fun _ _ h => h) ?_) ?_
      · exact fun e v h => ⟨hu.trans h.1, fun hq => h.2 ((hu.containers _).1.quiet hq)⟩
      rintro size? x ⟨hx, rfl⟩
      rw [Option.isNone_map, PlainStore.hold?_of_looks hu]
      have hfinish : ∀ y, ((PlainStore.remote r).accept w key content).Looks y →
          Ensures (if move then (do let _ ← source.delete sourceKey; return some key)
            else return some key : Action (Option String)) y
          (fun k? v => (k? = none ∧ some content = none ∧ w.Looks v) ∨
            (k? = some key ∧ ∃ content' x, some content = some content' ∧
              ((PlainStore.remote r).accept w key content').Looks x ∧
              if move = true then D x v else v = x))
          fun _ v => w.Looks v ∧ ¬ (w.container r.container).Quiet := by
        intro y hy
        refine (finish_spec (hdelete y content hsource hy)).mono ?_ fun _ _ h => h.elim
        exact fun k? v h => .inr ⟨h.1, content, y, rfl, hy, h.2⟩
      cases hkey : (PlainStore.remote r).hold? w key with
      | some held =>
        rw [if_neg (show ¬ (some held).isNone = true from nofun)]
        refine hfinish x ?_
        rw [PlainStore.accept_of_held (by rw [hkey]; rfl)]
        exact hu.trans hx
      | none =>
        rw [if_pos (show (none : Option Bytes).isNone = true from rfl)]
        refine Ensures.bind ((r.call_copyToFree_spec hsame hw (hu.trans hx) hsource hkey).mono
          (fun _ _ h => h) fun _ _ h => h.elim) ?_
        rintro answer y (⟨rfl, hy⟩ | ⟨e, rfl, hexists, hfound, hlooks, hquiet⟩)
        · exact hfinish y hy
        · cases e with
          | alreadyExists path => exact absurd rfl (hexists path)
          | notFound path => exact absurd rfl (hfound path)
          | generic => exact Ensures.bind_error rfl ⟨hlooks, hquiet⟩
          | denied _ => exact Ensures.bind_error rfl ⟨hlooks, hquiet⟩

namespace PlainStore

/-- Uploading a local file, on the way of either store. -/
def upload (p : PlainStore) (key : String) (file : LocalPath) : Action Unit :=
  match p with
  | memory m => m.storeFile key file
  | remote r => do
    let length ← fileSize file
    r.storeFile key file length

theorem upload_spec {p : PlainStore} {w : World} (hw : p.Quiet w) {file : LocalPath}
    {content : Bytes} (hread : w.read file = .ok content) (key : String) :
    Ensures (p.upload key file) w (fun _ v => (p.accept w key content).Looks v) NoError := by
  have hstore : ∀ length, Ensures (p.storeFile key file length) w
      (fun _ v => (p.accept w key content).Looks v) NoError := fun length =>
    (storeFile_content_spec hw.honest hread length).mono (fun _ _ h => h) fun _ _ h => h.2 hw
  cases p with
  | memory m => exact hstore 0
  | remote r => exact Ensures.bind_ok (fileSize_ok hread) (hstore content.length)

/-- Copies a blob into a store through a local file, on the way of either store. -/
def copyThrough (p : PlainStore) (key : String) (source : Store) (sourceKey : String)
    (move : Bool) : Action (Option String) :=
  match p with
  | memory m => m.copyFrom key source sourceKey move
  | remote r => r.copyThrough key source sourceKey move

/-- Without the local file of the source there is no copy. -/
theorem copyThrough_error (p : PlainStore) {w v : World} {e : BlobError} (key : String)
    (move : Bool) (h : source.localFile sourceKey w = .error e v) :
    p.copyThrough key source sourceKey move w = .error e v := by
  cases p with
  | memory m => exact run_bind_error (run_bind_error h _) _
  | remote r => exact run_bind_error (run_bind_error h _) _

theorem copyThrough_spec {p : PlainStore} {w : World} {A B : World → Prop}
    (hfile : Ensures (source.withFile sourceKey p.tempDir (p.upload key)) w
      (fun done? x => (done? = none ∧ A x) ∨ (done? = some () ∧ B x)) NoError)
    (hdelete : ∀ x, B x → Ensures (source.delete sourceKey) x (fun _ v => D x v) NoError) :
    Ensures (p.copyThrough key source sourceKey move) w
      (fun k? v => (k? = none ∧ A v) ∨
        (k? = some key ∧ ∃ x, B x ∧ if move then D x v else v = x)) NoError := by
  cases p with
  | memory m => exact BlobVault.copyThrough_spec hfile hdelete
  | remote r => exact BlobVault.copyThrough_spec hfile hdelete

/-- A store without a cache hands on through a temporary file what a read of the key gets. -/
theorem withFile_spec {p q : PlainStore} {w : World} {t : TempDir} (hp : p.Quiet w)
    (hq : q.Quiet w) (htemp : ∃ files, w.temps? t = some files) (sourceKey key : String) :
    Ensures (p.toStore.withFile sourceKey t (q.upload key)) w
      (fun done? x => (done? = none ∧ p.asked? w sourceKey = none ∧ w.Looks x) ∨
        (done? = some () ∧ ∃ content, p.asked? w sourceKey = some content ∧
          (q.accept w key content).Looks x)) NoError := by
  obtain ⟨files, hfiles⟩ := htemp
  have hlocal : p.toStore.localFile sourceKey w = .ok .unknown w := by
    cases p <;> rfl
  unfold Store.withFile
  refine Ensures.bind_ok hlocal ?_
  refine withTemp_spec hfiles fun serial hfree => ?_
  have hwritable := World.writable_putTemp hfiles serial []
  have hp' : p.Quiet (w.putTemp t serial []) := (quiet_putTemp p w t serial []).2 hp
  have hsame : p.asked? (w.putTemp t serial []) sourceKey = p.asked? w sourceKey := by
    unfold asked?
    rw [hold?_putTemp]
  obtain ⟨v, hv, hrun⟩ := readInto_run hp' sourceKey (.temp t serial)
  rw [hsame] at hrun
  cases hasked : p.asked? w sourceKey with
  | some content =>
    rw [hasked] at hrun
    refine Ensures.bind_ok (hrun.trans (run_bind_ok (putFile_ok (hv.writable hwritable) _) _)) ?_
    have hplace : (w.putTemp t serial content).Looks (v.place (.temp t serial) content) := by
      have hfilled := hv.place (.temp t serial) content
      rwa [show (w.putTemp t serial []).place (.temp t serial) content = _ from
        World.putTemp_putTemp [] content] at hfilled
    have hread : (v.place (.temp t serial) content).read (.temp t serial) = .ok content := by
      rw [hplace.read, World.read_putTemp hfiles]
    have hq' := ((quiet_putTemp q w t serial content).2 hq).of_looks hplace
    refine Ensures.bind (upload_spec hq' hread key) ?_
    intro _ x hx
    refine Ensures.pure (.inr ⟨rfl, content, rfl, ?_⟩)
    obtain ⟨u, hu', hu⟩ := World.exists_of_putTemp_looks hplace
    rw [hu', accept_putTemp] at hx
    obtain ⟨y, rfl, hy⟩ := World.exists_of_putTemp_looks hx
    have hfiles' : y.temps? t = some files := by
      rw [hy.temps?, temps?_accept, hu.temps?, hfiles]
    rw [World.dropTemp_putTemp hfiles' hfree]
    exact (accept_of_looks hu _ key content).trans hy
  | none =>
    rw [hasked] at hrun
    obtain ⟨u, rfl, hu⟩ := World.exists_of_putTemp_looks hv
    refine Ensures.bind_ok hrun (Ensures.pure (.inl ⟨rfl, rfl, ?_⟩))
    rwa [World.dropTemp_putTemp ((hu.temps? _).trans hfiles) hfree]

end PlainStore

end

/-- Moving within the store from one key to another takes the blob away from the first. A container
knows two keys of one object. -/
def PlainStore.MovesAway (p : PlainStore) (sourceKey key : String) : Prop :=
  match p with
  | .memory _ => True
  | .remote r => r.pathFor sourceKey ≠ r.pathFor key

/-- Where no fault strikes, a copy within a store gives the target the content of the source unless
it has one, and a move then drops the source. -/
theorem PlainStore.copy_spec {p : PlainStore} {w : World} (hw : p.Quiet w)
    (htemp : ∃ files, w.temps? p.tempDir = some files) {sourceKey : String}
    (hsource : ByteRange.splitKey sourceKey = (sourceKey, none)) (key : String) (move : Bool) :
    Ensures (p.toStore.copyFrom key p.toStore sourceKey move) w
      (fun k? v => (k? = none ∧ p.hold? w sourceKey = none ∧ w.Looks v) ∨
        (k? = some key ∧ ∃ content x, p.hold? w sourceKey = some content ∧
          (p.accept w key content).Looks x ∧
          ((move = true ∧ p.MovesAway sourceKey key ∧ (p.drop x sourceKey).Looks v) ∨
            (¬ (move = true ∧ p.MovesAway sourceKey key) ∧ v = x))))
      NoError := by
  have hquiet : ∀ x content, (p.accept w key content).Looks x → p.Quiet x := by
    intro x content hx
    refine Quiet.of_looks hx ?_
    unfold accept
    split
    · exact hw
    · exact hw.setObjects _
  have hdelete : ∀ x content, p.hold? w sourceKey = some content →
      (p.accept w key content).Looks x →
      Ensures (p.toStore.delete sourceKey) x (fun _ v => (p.drop x sourceKey).Looks v)
        NoError := by
    intro x content _ hx
    refine (p.delete_spec x sourceKey).mono ?_ fun _ _ h => h
    rintro _ v (hv | ⟨-, hstruck⟩)
    · exact hv
    · exact absurd (hquiet x content hx) hstruck
  cases p with
  | remote r =>
    have hrun : (remote r).toStore.copyFrom key (remote r).toStore sourceKey move =
        r.copyInside key (remote r).toStore r sourceKey move := if_pos rfl
    rw [hrun]
    refine (r.copyInside_spec rfl (Container.Quiet.honest hw) hdelete).mono ?_ fun _ _ h => h.2 hw
    rintro k? v (h | ⟨hk, content, x, hcontent, hx, hv⟩)
    · exact .inl h
    · refine .inr ⟨hk, content, x, hcontent, hx, ?_⟩
      by_cases hmove : move = true ∧ r.pathFor sourceKey ≠ r.pathFor key
      · rw [if_pos hmove] at hv
        exact .inl ⟨hmove.1, hmove.2, hv⟩
      · rw [if_neg hmove] at hv
        exact .inr ⟨hmove, hv⟩
  | memory m =>
    have hfile :=
      withFile_spec (p := memory m) (q := memory m) trivial trivial htemp sourceKey key
    rw [asked?_of_splitKey hsource] at hfile
    refine Ensures.mono (copyThrough_spec (D := fun x v => ((memory m).drop x sourceKey).Looks v)
      hfile fun x ⟨content, hcontent, hx⟩ => hdelete x content hcontent hx) ?_ fun _ _ h => h
    rintro k? v (h | ⟨hk, x, ⟨content, hcontent, hx⟩, hv⟩)
    · exact .inl h
    · refine .inr ⟨hk, content, x, hcontent, hx, ?_⟩
      cases move with
      | true => exact .inl ⟨rfl, trivial, hv⟩
      | false => exact .inr ⟨fun h => Bool.false_ne_true h.1, hv⟩

namespace CachedStore

variable {s : CachedStore} {w v : World} {key sourceKey : String}

theorem Fetched.turns {content : Bytes} (h : s.Fetched w key content v) :
    ∃ es, Turns s.cache w es v :=
  ⟨_, h.choose_spec.1⟩

theorem Fetched.intact {content : Bytes} (h : s.Fetched w key content v)
    (hw : s.cache.Intact w) : s.cache.Intact v := by
  obtain ⟨es, hturns, hadds⟩ := h
  exact hturns.intact hw (hadds.isFile hw.isFile)

theorem Unchanged.intact (h : s.Unchanged w v) (hw : s.cache.Intact w) : s.cache.Intact v :=
  Turns.intact h hw hw.isFile

theorem intact_of_accept_looks {x : World} {content : Bytes} (hw : s.cache.Intact w)
    (h : (s.inner.accept w key content).Looks x) : s.cache.Intact x :=
  (Turns.of_looks h).intact (s.inner.intact_accept hw key content)
    (s.inner.intact_accept hw key content).isFile

/-- What is left of the world when a blob of the store was copied: it came from the cache or from
the inner store, the target has it unless it had another one, and a move has deleted the source. -/
def Copied (s : CachedStore) (w : World) (key sourceKey : String) (move : Bool) (v : World) :
    Prop :=
  ∃ content u x, (s.serves? w sourceKey = some content ∨ s.inner.hold? w sourceKey = some content) ∧
    (s.Unchanged w u ∨ (s.serves? w sourceKey = some content ∧ s.Fetched w sourceKey content u)) ∧
    (s.inner.accept u key content).Looks x ∧
    ((move = true ∧ s.inner.MovesAway sourceKey key ∧ s.Deleted x sourceKey v) ∨
      (¬ (move = true ∧ s.inner.MovesAway sourceKey key) ∧ v = x))

/-- Where the container does not copy, the blob goes through the entry of the source. -/
theorem copySelf_through (s : CachedStore) (hinside : s.toStore.copiesInside s.toStore = false)
    (key sourceKey : String) (move : Bool) :
    s.toStore.copyFrom key s.toStore sourceKey move =
      s.inner.copyThrough key s.toStore sourceKey move := by
  obtain ⟨name, cache, inner, hcanonical⟩ := s
  cases inner with
  | memory m => rfl
  | remote r =>
    have hsame : (r.location == r.location) = false := hinside
    exact absurd (hsame.symm.trans (beq_self_eq_true r.location)) Bool.false_ne_true

/-- Copying a blob of the store to another key of it. The entry of the source is not opened where
the container copies. -/
theorem copySelf_spec (hw : s.cache.Intact w) (hp : s.inner.Honest w) (hsource : Accepted sourceKey)
    (hfits : Fits sourceKey)
    (hopen : s.toStore.copiesInside s.toStore = false → ¬ s.cache.Locked w sourceKey)
    (key : String) (move : Bool) :
    Ensures (s.toStore.copyFrom key s.toStore sourceKey move) w
      (fun k? v => (k? = none ∧ (s.serves? w sourceKey = none ∨ s.inner.hold? w sourceKey = none) ∧
          s.Unchanged w v) ∨
        (k? = some key ∧ s.Copied w key sourceKey move v))
      fun _ v => ¬ s.inner.Quiet w ∧ (s.Unchanged w v ∨
        ∃ content, s.serves? w sourceKey = some content ∧ s.Fetched w sourceKey content v) := by
  obtain ⟨name, cache, inner, hcanonical⟩ := s
  cases inner with
  | remote r =>
    have hrun : (CachedStore.mk name cache (.remote r) hcanonical).toStore.copyFrom key
        (CachedStore.mk name cache (.remote r) hcanonical).toStore sourceKey move =
        r.copyInside key (CachedStore.mk name cache (.remote r) hcanonical).toStore r sourceKey
          move := if_pos rfl
    rw [hrun]
    refine Ensures.mono (r.copyInside_spec (D := fun x v =>
      (CachedStore.mk name cache (.remote r) hcanonical).Deleted x sourceKey v) rfl hp ?_) ?_ ?_
    · intro x content _ hx
      exact delete_spec (s := ⟨name, cache, .remote r, hcanonical⟩)
        (intact_of_accept_looks (s := ⟨name, cache, .remote r, hcanonical⟩) hw hx) sourceKey
    · rintro k? v (⟨hk, hnone, hv⟩ | ⟨hk, content, x, hcontent, hx, hv⟩)
      · exact .inl ⟨hk, .inr hnone, .of_looks hv⟩
      · refine .inr ⟨hk, content, w, x, .inr hcontent, .inl (.of_looks (.refl w)), hx, ?_⟩
        by_cases hmove : move = true ∧ r.pathFor sourceKey ≠ r.pathFor key
        · rw [if_pos hmove] at hv
          exact .inl ⟨hmove.1, hmove.2, hv⟩
        · rw [if_neg hmove] at hv
          exact .inr ⟨hmove, hv⟩
    · exact fun _ v h => ⟨h.2, .inl (.of_looks h.1)⟩
  | memory m =>
    have hlocal := localFile_spec (s := ⟨name, cache, .memory m, hcanonical⟩) hw hp hsource hfits
      (hopen rfl)
    show Ensures (m.copyFrom key _ sourceKey move) _ _ _
    unfold MemoryStore.copyFrom Store.withFile
    rw [bind_assoc]
    refine Ensures.bind (hlocal.mono (fun _ _ h => h) fun _ _ h => ⟨h.1, .inl h.2⟩) ?_
    rintro lookup u (⟨content, rfl, hserves, hu⟩ | ⟨rfl, hnone, hu⟩)
    · dsimp only
      rw [bind_assoc]
      refine Ensures.bind ((PlainStore.storeFile_content_spec (p := .memory m) trivial
        (hu.read hw) 0).mono (fun _ _ h => h) fun _ _ h => absurd trivial h.2) ?_
      intro _ x hx
      refine (finish_spec (D := fun x v =>
        (CachedStore.mk name cache (.memory m) hcanonical).Deleted x sourceKey v)
        (delete_spec (s := ⟨name, cache, .memory m, hcanonical⟩)
          (intact_of_accept_looks (s := ⟨name, cache, .memory m, hcanonical⟩)
            (hu.intact hw) hx) sourceKey)).mono ?_ fun _ _ h => h.elim
      rintro k? v ⟨rfl, hv⟩
      refine .inr ⟨rfl, content, u, x, .inl hserves, .inr ⟨hserves, hu⟩, hx, ?_⟩
      cases move with
      | true => exact .inl ⟨rfl, trivial, hv⟩
      | false => exact .inr ⟨fun h => Bool.false_ne_true h.1, hv⟩
    · exact Ensures.pure (.inl ⟨rfl, .inl hnone, hu⟩)

end CachedStore

end BlobVault
