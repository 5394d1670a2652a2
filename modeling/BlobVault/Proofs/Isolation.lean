import BlobVault.Proofs.Answers
import BlobVault.Proofs.Confinement
import BlobVault.Proofs.Listing

/-!
# Isolation of namespaces

Stores share a container by giving their keys different beginnings. What stands for a key in one
namespace has the segments of the root and then the encoded key, so namespaces whose roots have
different segments have no path in common, also where the one lies inside the other. Nor does a
listing of the one show a path of the other: below a canonical root the segments of what it shows
are those of the root and the key, and below another root it shows no path at all.

1. `Namespace.pathFor_ne`, `Namespace.pathFor_ne_shown`: the paths of two namespaces.
2. `RemoteStore.SameAnswers`: what a store answers, and when it does so alike.
3. `World.confined_moment`: what a run through one store changes.
4. `RemoteStore.isolated`: the other store has the same objects and answers alike.
-/

namespace BlobVault

open Std (ExtTreeMap)
open ObjectPath (parts segmentsOf)

/-! ## Paths of two namespaces -/

namespace Namespace

variable {m n : Namespace} {key other : String}

/-- The segments of a text are encoded one by one, and no two of them alike. -/
theorem parts_eq_of_segmentsOf {a b : List Char} (h : segmentsOf a = segmentsOf b) :
    parts a = parts b :=
  List.map_injective_iff.2 (fun _ _ => ObjectPath.encodeSegment_injective) h

/-- Below roots with different segments no path is the same. -/
theorem pathFor_ne (hm : m.Closed) (hn : n.Closed)
    (hne : parts m.root.toList ≠ parts n.root.toList) (hkey : PlainChars key.toList)
    (hother : PlainChars other.toList) : m.pathFor key ≠ n.pathFor other := by
  intro heq
  have hsegments := congrArg ObjectPath.segments heq
  rw [segments_pathFor hm hkey, segments_pathFor hn hother] at hsegments
  exact hne (parts_eq_of_segmentsOf (List.append_inj' hsegments rfl).1)

/-- Nor does a path stand for a key in a listing of the other namespace. -/
theorem pathFor_ne_shown (hm : m.Closed) (hn : n.Closed)
    (hne : parts m.root.toList ≠ parts n.root.toList) (hkey : PlainChars key.toList)
    (hother : PlainChars other.toList)
    (htop : ∀ top, n.top? = some top → (ObjectPath.mk (n.root ++ other)).isBelow top = true) :
    (m.pathFor key).text ≠ n.root ++ other := by
  intro heq
  have hshown : n.localKey? (m.pathFor key) = some other := by
    rw [localKey?_eq_some_iff, heq, ← String.toList_append, String.ofList_toList]
    exact ⟨hother, rfl⟩
  -- a listing shows paths below a canonical root only
  have hcanonical : n.Canonical := by
    have hproper : ObjectPath.IsProper (m.pathFor key).text := ObjectPath.isProper_ofChars _
    refine canonical_of_localKey? hn hproper (fun top h => ?_) hshown
    rw [show m.pathFor key = ObjectPath.mk (n.root ++ other) from congrArg ObjectPath.mk heq]
    exact htop top h
  have hsegments := segments_pathFor hm hkey
  unfold ObjectPath.segments at hsegments
  rw [heq, String.toList_append, parts_root_append_plain hn hother] at hsegments
  have hroots := (List.append_inj' hsegments rfl).1
  rw [← segmentsOf_of_canonical hcanonical] at hroots
  exact hne (parts_eq_of_segmentsOf hroots.symm)

end Namespace

/-! ## Answers of a store -/

namespace RemoteStore

/-- In both worlds the store gives the same answers: whether blobs exist, what is in them, how long
they are, and which there are, by a listing, a scroll or the start of a collection. -/
structure SameAnswers (r : RemoteStore) (w v : World) : Prop where
  reads : ∀ key : String, PlainChars key.toList → (Store.remote r).ReadsAlike key w v
  size? : ∀ key : String, PlainChars key.toList → v.answer (r.size? key) = w.answer (r.size? key)
  list : (r.list v).1 = (r.list w).1
  scroll : ∀ batchSize n,
    (Scroll.ofRemote r batchSize).readOut v n = (Scroll.ofRemote r batchSize).readOut w n
  candidates : ∀ algorithm pageSize order,
    v.answer (r.collector algorithm pageSize order).begin =
      w.answer (r.collector algorithm pageSize order).begin

variable {r : RemoteStore} {w v : World}

/-- Without faults the answers depend on the objects that plain keys have and on those that a
listing shows. -/
theorem sameAnswers (hw : (PlainStore.remote r).Quiet w) (hv : (PlainStore.remote r).Quiet v)
    (hheld : ∀ key : String, PlainChars key.toList →
      (PlainStore.remote r).hold? v key = (PlainStore.remote r).hold? w key)
    (hshown : ∀ key, r.Shows key →
      (v.container r.container).objects[r.space.root ++ key]? =
        (w.container r.container).objects[r.space.root ++ key]?) : r.SameAnswers w v := by
  obtain ⟨w', hlist, -⟩ := list_run hw
  obtain ⟨v', hlist', -⟩ := list_run hv
  rw [listed_eq hshown] at hlist'
  constructor
  · intro key hkey
    exact PlainStore.readsAlike (p := .remote r) hw hv (hheld key hkey)
      (hheld _ (PlainStore.plainChars_target _ hkey))
  · intro key hkey
    obtain ⟨_, hsize, -⟩ := size?_run hw key
    obtain ⟨_, hsize', -⟩ := size?_run hv key
    rw [World.answer_of_ok hsize, World.answer_of_ok hsize', hheld key hkey]
  · rw [hlist, hlist']
  · intro batchSize n
    cases n with
    | zero => rfl
    | succ n =>
      refine (Scroll.readOut_untaken hlist' n).trans
        (Eq.trans ?_ (Scroll.readOut_untaken hlist n).symm)
      exact Scroll.readOut_taken_world _ _ _ _ _ _
  · intro algorithm pageSize order
    have hbegin := (r.collector algorithm pageSize order).begin_ok (s := w) hlist
    have hbegin' := (r.collector algorithm pageSize order).begin_ok (s := v) hlist'
    rw [World.answer_of_ok hbegin, World.answer_of_ok hbegin']

end RemoteStore

/-! ## Runs through one store -/

/-- What happens happens through one remote store and with plain keys, or moves no bytes. A sweep
may be that of any pass with digests as its candidates. -/
def Event.Through (r : RemoteStore) : Event → Prop
  | .operation store op => store = .remote r ∧ op.Names fun key => PlainChars key.toList
  | .listing store _ _ => store = .remote r
  | .sweep store algorithm _ pass _ =>
    store = .remote r ∧ ∀ key ∈ pass.candidates, algorithm.isDigest key = true
  | .interlude _ => True

namespace World

variable {r : RemoteStore} {w : World} {events : List Event}

theorem confined_happen {event : Event} (h : event.Through r) (w : World) :
    ∀ place, ¬ (PlainStore.remote r).Reaches place →
      (event.happen w).bytesAt? place = w.bytesAt? place := by
  cases event with
  | operation store operation =>
    obtain ⟨rfl, hplain⟩ := h
    have hchange := Store.perform_confined (Store.inView_true (.remote r)) r.tempDir.inView_true
      hplain operation.inView_true (fun _ hkey => (PlainStore.remote r).reaches_place hkey)
      (fun _ _ h => h) w
    exact (World.after_spec hchange).bytes
  | listing store algorithm pageSize =>
    obtain rfl : store = .remote r := h
    have hchange := @PlainStore.begin_confined (.remote r) (fun _ => True) algorithm pageSize
      .listed w
    exact (World.after_spec hchange).bytes
  | sweep store algorithm order pass delete =>
    obtain ⟨rfl, hpass⟩ := h
    have hplain : ∀ key ∈ pass.candidates, PlainChars key.toList := fun key hkey =>
      DigestAlgorithm.plainChars_of_isDigest (hpass key hkey)
    have hchange := @PlainStore.sweep_confined (.remote r) (fun _ => True) algorithm defaultPageSize
      order pass hplain delete w
    exact (World.after_spec hchange).bytes
  | interlude i => exact fun place _ => i.keeps w place

/-- A run through one store changes bytes only where the store can have blobs. -/
theorem confined_moment (h : ∀ event ∈ events, event.Through r) (n : Nat) {place : Place}
    (hplace : ¬ (PlainStore.remote r).Reaches place) :
    (w.moment events n).bytesAt? place = w.bytesAt? place := by
  induction n with
  | zero => rfl
  | succ n ih =>
    by_cases hn : n < events.length
    · have hevent := List.getElem?_eq_getElem hn
      rw [moment_succ hevent]
      exact (confined_happen (h _ (List.mem_of_getElem? hevent)) _ place hplace).trans ih
    · rw [moment_of_length_le (by omega)]
      exact ih

end World

namespace RemoteStore

variable {writer reader : RemoteStore}

/-- A store cannot reach the objects of plain keys in another namespace. -/
theorem not_reaches_place (hw : writer.space.Closed) (hr : reader.space.Closed)
    (hne : parts writer.space.root.toList ≠ parts reader.space.root.toList) {key : String}
    (hkey : PlainChars key.toList) :
    ¬ (PlainStore.remote writer).Reaches ((PlainStore.remote reader).place key) := by
  rintro ⟨other, hother, heq⟩
  obtain ⟨-, htext⟩ := Place.object.inj heq
  exact Namespace.pathFor_ne hw hr hne hother hkey (congrArg ObjectPath.mk htext.symm)

/-- Nor the objects that a listing of another namespace shows. -/
theorem not_reaches_shown (hw : writer.space.Closed) (hr : reader.space.Closed)
    (hne : parts writer.space.root.toList ≠ parts reader.space.root.toList) {key : String}
    (hkey : reader.Shows key) :
    ¬ (PlainStore.remote writer).Reaches (.object reader.container (reader.space.root ++ key)) := by
  rintro ⟨other, hother, heq⟩
  obtain ⟨-, htext⟩ := Place.object.inj heq
  exact Namespace.pathFor_ne_shown hw hr hne hother hkey.1 hkey.2 htext.symm

/-- **Isolation.** Take two remote stores, also of one container, whose prefixes have different
segments; the one may lie inside the other. In every run through the first store alone, with plain
keys and with any faults, the objects under plain keys of the second stay as they are. At every
moment of the run the second, once no fault is in its way, gives the answers that it would have
given before the run. Among what can happen in such a run are the sweeps of all passes that were
begun by a collector on the first store, with any marks. -/
theorem isolated (writer reader : RemoteStore) (a b : String) (hwriter : writer.space = .ofText a)
    (hreader : reader.space = .ofText b) (hne : parts a.toList ≠ parts b.toList) (w : World)
    (events : List Event) (hevents : ∀ event ∈ events, event.Through writer) :
    (∀ (n : Nat) (key : String), PlainChars key.toList →
      (PlainStore.remote reader).hold? (w.moment events n) key =
        (PlainStore.remote reader).hold? w key) ∧
    (∀ (n : Nat) (before after : World), w.Keeps before → (w.moment events n).Keeps after →
      (PlainStore.remote reader).Quiet before → (PlainStore.remote reader).Quiet after →
      reader.SameAnswers before after) ∧
    ∀ algorithm pageSize order u pass v marks delete,
      ((PlainStore.remote writer).collector algorithm pageSize order).begin u = .ok pass v →
      (Event.sweep (.remote writer) algorithm order (pass.markEach marks).2 delete).Through
        writer := by
  have hw : writer.space.Closed := hwriter ▸ Namespace.closed_ofText a
  have hr : reader.space.Closed := hreader ▸ Namespace.closed_ofText b
  have hroots : parts writer.space.root.toList ≠ parts reader.space.root.toList := by
    rwa [hwriter, hreader, Namespace.parts_ofText, Namespace.parts_ofText]
  have hstays : ∀ (n : Nat) (key : String), PlainChars key.toList →
      (PlainStore.remote reader).hold? (w.moment events n) key =
        (PlainStore.remote reader).hold? w key := by
    intro n key hkey
    rw [← PlainStore.bytesAt?_place, ← PlainStore.bytesAt?_place]
    exact World.confined_moment hevents n (not_reaches_place hw hr hroots hkey)
  refine ⟨hstays, fun n before after hbefore hafter hquiet hquiet' => ?_, ?_⟩
  · refine sameAnswers hquiet hquiet' (fun key hkey => ?_) fun key hkey => ?_
    · rw [PlainStore.hold?_of_keeps hafter, hstays n key hkey, PlainStore.hold?_of_keeps hbefore]
    · have hshown := World.confined_moment (w := w) hevents n (not_reaches_shown hw hr hroots hkey)
      exact (hafter _).trans (hshown.trans (hbefore _).symm)
  · intro algorithm pageSize order u pass v marks delete hbegin
    refine ⟨rfl, fun key hkey => ?_⟩
    exact GarbageCollector.isDigest_of_begin hbegin key (GcPass.mem_of_markEach hkey)

/-- Clearing the whole container as a namespace leaves a namespace inside it as it is. -/
theorem isolated_inside_cleared :
    let writer : RemoteStore := {
      name := "all"
      location := ⟨"account", "box"⟩
      container := "box"
      space := .ofText ""
      tempDir := .scratch "temps" }
    let reader : RemoteStore := { writer with name := "vault", space := .ofText "cas" }
    let blobs : Blobs := (ExtTreeMap.insert ∅ "cas/k" [1]).insert "k" [2]
    let w : World := ({} : World).setContainer "box" { objects := blobs }
    let events : List Event := [.operation (.remote writer) .clear]
    parts "".toList ≠ parts "cas".toList ∧ (∀ event ∈ events, event.Through writer) ∧
      (PlainStore.remote reader).hold? (w.moment events 1) "k" = some [1] ∧
      reader.SameAnswers w (w.moment events 1) := by
  intro writer reader blobs w events
  have hne : parts "".toList ≠ parts "cas".toList := by decide
  have hevents : ∀ event ∈ events, event.Through writer := by
    intro event hevent
    obtain rfl := List.mem_singleton.1 hevent
    exact ⟨rfl, fun _ hkey => hkey⟩
  have hbox : w.container "box" = { objects := blobs } := World.container_setContainer_self _ _ _
  have hquiet : (PlainStore.remote reader).Quiet w := congrArg Container.faults hbox
  have hshares : w.Shares (w.moment events 1) := by
    have hclear := (PlainStore.remote writer).clear_spec w
    exact World.after_spec (Ensures.bind hclear fun _ _ hv => Ensures.pure hv)
  have hquiet' : (PlainStore.remote reader).Quiet (w.moment events 1) :=
    hquiet.of_follows hshares.follows
  obtain ⟨hstays, hanswers, -⟩ :=
    isolated writer reader "" "cas" rfl rfl hne w events hevents
  refine ⟨hne, hevents, ?_, hanswers 1 w _ (fun _ => rfl) (fun _ => rfl) hquiet hquiet'⟩
  have hpath : (reader.pathFor "k").text = "cas/k" := by decide
  rw [hstays 1 "k" ⟨by decide, by decide⟩]
  show (w.container "box").objects[(reader.pathFor "k").text]? = some [1]
  rw [hbox, hpath, ExtTreeMap.getElem?_insert, if_neg (by decide)]
  exact ExtTreeMap.getElem?_insert_self

end RemoteStore

end BlobVault
