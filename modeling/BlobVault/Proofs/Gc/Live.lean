import BlobVault.Proofs.Confinement
import BlobVault.Proofs.Gc.Exact
import BlobVault.Proofs.Qualified

/-!
# What live references protect

A collection takes the live references as they are, and looks for them among the listed keys. So a
reference protects the object of a digest key only if it is the key itself. The qualified form,
which reads and deletions of a provider take for the same key, protects nothing.

1. `GarbageCollector.snd_execute`: the world that a command leaves.
2. `PlainStore.Retains`: the objects that a command has to leave alone;
   `PlainStore.execute_retains`, `PlainStore.execute_erases`: these it leaves, whatever fails, and
   without faults it erases the others.
3. `Provider.localKey_eq_iff`: the references that stand for a digest key.
4. `Provider.live_protects_iff`: what the commands of a provider delete.
-/

namespace BlobVault

open Std (ExtTreeMap)
open World (Confined)

theorem GcReport.snd_concluded {r : GcReport} {now : Timestamp} (x : Action GcStatus) (w : World) :
    (r.concluded now (x w)).2 = w.after x := by
  unfold World.after
  cases x w <;> rfl

namespace GarbageCollector

variable (gc : GarbageCollector World) {live : LiveKeys} (report : GcReport) (now : Timestamp)
  {w v : World}

theorem snd_execute_sweep {blobs : List ListedBlob}
    (hlist : gc.catalog.list w = (blobs.map .ok, v)) (hlive : ∀ e, .error e ∉ live) :
    (gc.execute live report now w).2 = v.after
      (gc.reclaimAll report.delete (gc.unnamed blobs live) (gc.passOf blobs).status) := by
  rw [gc.execute_sweep report now hlist hlive, GcReport.snd_concluded]

/-- A command ends with its listing, or it sweeps what it has listed. -/
theorem snd_execute (live : LiveKeys) (w : World) :
    (gc.execute live report now w).2 = (gc.catalog.list w).2 ∨
      ∃ blobs v, gc.catalog.list w = (blobs.map .ok, v) ∧ (∀ e, .error e ∉ live) ∧
        (gc.execute live report now w).2 = v.after
          (gc.reclaimAll report.delete (gc.unnamed blobs live) (gc.passOf blobs).status) := by
  rcases Pager.items_eq_or (gc.catalog.list w).1 with ⟨blobs, hitems⟩ | ⟨blobs, e, rest, hitems⟩
  · have hlist : gc.catalog.list w = (blobs.map .ok, (gc.catalog.list w).2) := Prod.ext hitems rfl
    by_cases hlive : ∃ e, .error e ∈ live
    · obtain ⟨e, hm⟩ := Option.isSome_iff_exists.1
        ((Marking.isSome_markAll_iff { pass := gc.passOf blobs } live).2 hlive)
      left
      rw [gc.execute_mark_error report now (gc.begin_ok hlist) hm]
    · rw [not_exists] at hlive
      exact .inr ⟨blobs, _, hlist, hlive, gc.snd_execute_sweep report now hlist hlive⟩
  · have hlist : gc.catalog.list w = (blobs.map .ok ++ .error e :: rest, (gc.catalog.list w).2) :=
      Prod.ext hitems rfl
    left
    rw [gc.execute_begin_error report now (gc.begin_failure hlist)]

end GarbageCollector

/-! ## Objects that are left alone -/

namespace PlainStore

/-- The object of a key is not to be deleted: the command only counts, or a live reference fails, or
every digest key that stands for the object is named. -/
def Retains (p : PlainStore) (algorithm : DigestAlgorithm) (live : LiveKeys) (delete : Bool)
    (key : String) : Prop :=
  delete = false ∨ (∃ e, .error e ∈ live) ∨
    ∀ digest, algorithm.isDigest digest = true → p.address digest = p.address key →
      .ok digest ∈ live

variable {p : PlainStore} {gc : GarbageCollector World} {live : LiveKeys} {w : World}
  {key : String}

theorem retains_of_address {algorithm : DigestAlgorithm} {delete : Bool} {other : String}
    (h : p.address key = p.address other) (hkey : p.Retains algorithm live delete key) :
    p.Retains algorithm live delete other := by
  unfold Retains at hkey ⊢
  rwa [← h]

/-- For a digest key the name that counts is the key itself. -/
theorem retains_iff_of_isDigest {algorithm : DigestAlgorithm} {delete : Bool} (hp : p.Closed)
    (hkey : algorithm.isDigest key = true) :
    p.Retains algorithm live delete key ↔
      delete = false ∨ (∃ e, .error e ∈ live) ∨ .ok key ∈ live := by
  refine or_congr_right (or_congr_right ⟨fun h => h key hkey rfl, ?_⟩)
  intro h digest hdigest haddress
  obtain rfl := address_inj hp (KeyStrategy.accepted_of_isDigest hdigest)
    (KeyStrategy.accepted_of_isDigest hkey) haddress
  exact h

/-- Whatever fails, a command changes bytes only where it may delete a digest key. -/
theorem execute_confined {view : String → Prop} {reach : Place → Prop}
    (hcatalog : gc.catalog = p.catalog) (report : GcReport) (now : Timestamp)
    (hreach : ∀ digest, gc.algorithm.isDigest digest = true →
      ¬ p.Retains gc.algorithm live report.delete digest → reach (p.place digest)) (w : World) :
    w.Confined view reach (gc.execute live report now w).2 := by
  have hlist : w.Looks (gc.catalog.list w).2 := by
    rw [hcatalog]
    exact p.catalog_list_looks w
  rcases gc.snd_execute report now live w with hend | ⟨blobs, v, hitems, hlive, hend⟩
  · rw [hend]
    exact .of_looks hlist
  · rw [hitems] at hlist
    rw [hend]
    refine (Confined.of_looks hlist).trans (World.after_spec (p.reclaimAll_admits
      (Confined.admits view reach) gc hcatalog (fun hdelete digest hswept u => ?_) _ v))
    obtain ⟨-, hdigest, hnamed⟩ := gc.listed_of_mem_unnamed hswept
    refine catalog_remove_confined (hreach digest hdigest ?_) u
    rintro (hcounts | ⟨e, he⟩ | hnames)
    · rw [hdelete] at hcounts
      exact absurd hcounts nofun
    · exact hlive e he
    · exact hnamed (hnames digest hdigest rfl)

/-- Whatever fails, a command leaves the objects that it has to leave. -/
theorem execute_retains (hcatalog : gc.catalog = p.catalog) (report : GcReport) (now : Timestamp)
    (w : World) (h : p.Retains gc.algorithm live report.delete key) :
    p.hold? (gc.execute live report now w).2 key = p.hold? w key := by
  have hreach : ∀ digest, gc.algorithm.isDigest digest = true →
      ¬ p.Retains gc.algorithm live report.delete digest → p.place digest ≠ p.place key :=
    fun digest _ hlost hplace => hlost (retains_of_address (address_eq_of_place_eq hplace).symm h)
  have hconfined : w.Confined (fun _ => True) (· ≠ p.place key)
      (gc.execute live report now w).2 :=
    execute_confined hcatalog report now hreach w
  rw [← bytesAt?_place, ← bytesAt?_place]
  exact hconfined.bytes _ fun hne => hne rfl

/-- Without faults, a command erases the objects that it does not have to leave. -/
theorem execute_erases (hp : p.Canonical) (hcatalog : gc.catalog = p.catalog) (report : GcReport)
    (now : Timestamp) (hw : p.Quiet w) (h : ¬ p.Retains gc.algorithm live report.delete key) :
    p.hold? (gc.execute live report now w).2 key = none := by
  unfold Retains at h
  simp only [not_or, not_exists, not_forall] at h
  obtain ⟨hdelete, hlive, digest, hdigest, haddress, hnamed⟩ := h
  obtain ⟨blobs, v, hlist, hlooks, -⟩ := list_catalog hp hw
  obtain ⟨pass, u, hbegin, -, hbegun⟩ := begin_exact hp hw gc hcatalog
  rw [← hcatalog] at hlist
  -- the pass that the command sweeps is the one of the listing
  obtain rfl : gc.passOf blobs = pass :=
    (EStateM.Result.ok.inj ((gc.begin_ok hlist).symm.trans hbegin)).1
  obtain ⟨status, x, hrun, hget⟩ := reclaimAll_erases gc hcatalog (hw.of_looks hlooks)
    report.delete (gc.unnamed blobs live) (gc.passOf blobs).status
  rw [gc.snd_execute_sweep report now hlist hlive, World.after_of_ok hrun]
  unfold hold?
  rw [hget, objects_of_looks hlooks, ← haddress, address_of_isDigest hp hdigest]
  split
  · rfl
  · rename_i hspared
    by_contra hheld
    refine hspared ⟨by simpa using hdelete, digest, gc.mem_unnamed.2 ⟨?_, hnamed⟩,
      address_of_isDigest hp hdigest⟩
    refine (hbegun.mem digest).2 ⟨hdigest, ExtTreeMap.mem_iff_isSome_getElem?.2 ?_⟩
    exact Option.isSome_iff_ne_none.2 hheld

end PlainStore

/-! ## Runners -/

namespace GcRunner

variable {σ : Type}

/-- The state after a command is accepted and carried out. -/
def stateAfter (r : GcRunner σ) (id : CommandId) (command : GcCommand)
    (submitted now : Timestamp) (s : σ) : σ :=
  ((r.submit id command submitted).finish id now s).2

/-- A runner's command is one of its collector, whatever the runner did before. -/
theorem stateAfter_eq (r : GcRunner σ) (id : CommandId) (command : GcCommand)
    (submitted now : Timestamp) (s : σ) :
    r.stateAfter id command submitted now s = (r.gc.execute r.live
      (.scheduled id r.gc.id command submitted) now s).2 := by
  have hstatus : (r.submit id command submitted).status? id =
      some (.scheduled id r.gc.id command submitted) := ExtTreeMap.getElem?_insert_self
  unfold stateAfter finish
  simp only [hstatus]
  rfl

end GcRunner

/-! ## Providers -/

namespace Provider

variable {p : Provider} {algorithm : DigestAlgorithm} {key reference : String}

/-- A digest key is what the key itself and its qualified form stand for, and nothing else. -/
theorem localKey_eq_iff (hkey : algorithm.isDigest key = true) :
    p.localKey reference = key ↔ reference = key ∨ reference = p.qualified key := by
  constructor
  · rintro rfl
    by_cases hqualified : ∃ rest, reference = p.qualified rest
    · obtain ⟨rest, rfl⟩ := hqualified
      rw [localKey_qualified]
      exact .inr rfl
    · rw [not_exists] at hqualified
      exact .inl (localKey_of_not_qualified hqualified).symm
  · rintro (rfl | rfl)
    · exact localKey_of_isDigest hkey
    · exact p.localKey_qualified key

/-- The runner of a provider with digest keys works on the whole remote store. -/
theorem runner_of_digest (hkeys : p.keys = .digest algorithm) (live : LiveKeys) :
    p.runner live = .ok { gc := { catalog := p.base.catalog, algorithm }, live } := by
  unfold runner collector
  rw [hkeys]
  rfl

/-- **What live references protect.** Take a provider with digest keys over a canonical namespace,
a runner of its commands on some live references, whatever it did before and in whatever order it
sweeps, and a command in any world. Whatever fails, the command leaves the object of a key as it was
if it has to leave it; where no fault strikes, the object is gone otherwise. It has to leave the
object of a digest key exactly if it only counts, or a reference fails, or a reference is the key
itself. The qualified form, which stands for the same key, does not count. -/
theorem live_protects_iff (p : Provider) (algorithm : DigestAlgorithm)
    (hkeys : p.keys = .digest algorithm) (hp : p.remote.space.Canonical) (live : LiveKeys) :
    ∃ runner, p.runner live = .ok runner ∧
      ∀ (r : GcRunner World) (order : SweepOrder), r.gc = { runner.gc with order } →
        r.live = runner.live →
        ∀ (id : CommandId) (command : GcCommand) (submitted now : Timestamp) (w : World)
            (key : String),
          let after := r.stateAfter id command submitted now w
          (p.base.Retains algorithm live command.delete key →
            p.hold? after key = p.hold? w key) ∧
          (p.base.Quiet w → ¬ p.base.Retains algorithm live command.delete key →
            p.hold? after key = none) ∧
          (algorithm.isDigest key = true →
            (p.base.Retains algorithm live command.delete key ↔
              command.delete = false ∨ (∃ e, .error e ∈ live) ∨ .ok key ∈ live) ∧
            ∀ reference, p.localKey reference = key ↔
              reference = key ∨ reference = p.qualified key) := by
  refine ⟨_, runner_of_digest hkeys live,
    fun r order hgc hlive id command submitted now w key => ?_⟩
  intro after
  have hafter : after = (r.gc.execute live
      (.scheduled id r.gc.id command submitted) now w).2 :=
    (r.stateAfter_eq id command submitted now w).trans (by rw [hlive])
  have hcatalog : r.gc.catalog = p.base.catalog := congrArg GarbageCollector.catalog hgc
  have halgorithm : r.gc.algorithm = algorithm := congrArg GarbageCollector.algorithm hgc
  rw [← halgorithm, hafter]
  refine ⟨fun hretains => ?_, fun hw hlost => ?_, fun hdigest => ⟨?_, fun _ => ?_⟩⟩
  · exact PlainStore.execute_retains hcatalog _ now w hretains
  · exact PlainStore.execute_erases (p := p.base) hp hcatalog _ now hw hlost
  · exact PlainStore.retains_iff_of_isDigest (Namespace.Canonical.closed hp) hdigest
  · exact localKey_eq_iff hdigest

/-- A command keeps the digest key that is named and erases another one. -/
theorem live_protects_named :
    let p : Provider := {
      id := "vault"
      keys := .digest .md5
      remote := {
        name := "vault"
        location := ⟨"account", "box"⟩
        container := "box"
        space := ⟨"cas/"⟩
        tempDir := .scratch "temps" } }
    let live : LiveKeys := [.ok "acbd18db4cc2f85cedef654fccc4a4d8"]
    let blobs : Blobs := (ExtTreeMap.insert ∅ "cas/37b51d194a7513e45b56f6524f2d51f2" [98]).insert
      "cas/acbd18db4cc2f85cedef654fccc4a4d8" [102]
    let w : World := ({} : World).setContainer "box" { objects := blobs }
    p.remote.space.Canonical ∧ p.base.Quiet w ∧
      ∃ runner, p.runner live = .ok runner ∧
        let after := runner.stateAfter ⟨"sweep"⟩ ⟨true⟩ ⟨0, 0, 0⟩ ⟨0, 0, 0⟩ w
        p.hold? after "acbd18db4cc2f85cedef654fccc4a4d8" = some [102] ∧
        p.hold? after "37b51d194a7513e45b56f6524f2d51f2" = none := by
  intro p live blobs w
  have hp : p.remote.space.Canonical := by decide
  have hbox : w.container "box" = { objects := blobs } := World.container_setContainer_self _ _ _
  have hw : p.base.Quiet w := congrArg Container.faults hbox
  have hfoo : p.base.address "acbd18db4cc2f85cedef654fccc4a4d8" =
      "cas/acbd18db4cc2f85cedef654fccc4a4d8" := by decide
  have hheld : p.hold? w "acbd18db4cc2f85cedef654fccc4a4d8" = some [102] := by
    show (w.container "box").objects[_]? = _
    rw [hfoo, hbox]
    exact ExtTreeMap.getElem?_insert_self
  obtain ⟨runner, hrunner, hcommand⟩ := live_protects_iff p .md5 rfl hp live
  refine ⟨hp, hw, runner, hrunner, ?_, ?_⟩
  · obtain ⟨hkept, -, hretains⟩ := hcommand runner runner.gc.order rfl rfl ⟨"sweep"⟩ ⟨true⟩
      ⟨0, 0, 0⟩ ⟨0, 0, 0⟩ w "acbd18db4cc2f85cedef654fccc4a4d8"
    rw [hkept ((hretains (by decide)).1.2 (.inr (.inr List.mem_cons_self))), hheld]
  · obtain ⟨-, hgone, hretains⟩ := hcommand runner runner.gc.order rfl rfl ⟨"sweep"⟩ ⟨true⟩
      ⟨0, 0, 0⟩ ⟨0, 0, 0⟩ w "37b51d194a7513e45b56f6524f2d51f2"
    refine hgone hw fun h => ?_
    rcases (hretains (by decide)).1.1 h with hcounts | ⟨e, he⟩ | hnamed
    · exact absurd hcounts nofun
    · exact absurd (List.mem_singleton.1 he) nofun
    · exact absurd (Except.ok.inj (List.mem_singleton.1 hnamed)) (by decide)

/-- The only live reference names a blob in the qualified form. The reference reads the blob, and
the command erases it. -/
theorem erases_live_under_qualified_key :
    let p : Provider := {
      id := "vault"
      keys := .digest .md5
      remote := {
        name := "vault"
        location := ⟨"account", "box"⟩
        container := "box"
        tempDir := .scratch "temps" } }
    let reference := "vault:acbd18db4cc2f85cedef654fccc4a4d8"
    let blobs : Blobs := ExtTreeMap.insert ∅ "acbd18db4cc2f85cedef654fccc4a4d8" [102, 111, 111]
    let w : World := ({} : World).setContainer "box" { objects := blobs }
    p.localKey reference = "acbd18db4cc2f85cedef654fccc4a4d8" ∧
      p.Delivers w reference [102, 111, 111] ∧
      ∃ runner, p.runner [.ok reference] = .ok runner ∧
        p.hold? (runner.stateAfter ⟨"sweep"⟩ ⟨true⟩ ⟨0, 0, 0⟩ ⟨0, 0, 0⟩ w)
          "acbd18db4cc2f85cedef654fccc4a4d8" = none := by
  intro p reference blobs w
  have hp : p.remote.space.Canonical := by decide
  have hbox : w.container "box" = { objects := blobs } := World.container_setContainer_self _ _ _
  have hw : p.base.Quiet w := congrArg Container.faults hbox
  have hlocal : p.localKey reference = "acbd18db4cc2f85cedef654fccc4a4d8" := by decide
  have haddress : p.base.address "acbd18db4cc2f85cedef654fccc4a4d8" =
      "acbd18db4cc2f85cedef654fccc4a4d8" := by decide
  have hheld : p.hold? w "acbd18db4cc2f85cedef654fccc4a4d8" = some [102, 111, 111] := by
    show (w.container "box").objects[_]? = _
    rw [haddress, hbox]
    exact ExtTreeMap.getElem?_insert_self
  have hlost : ¬ p.base.Retains .md5 [.ok reference] true "acbd18db4cc2f85cedef654fccc4a4d8" := by
    rw [PlainStore.retains_iff_of_isDigest (p := p.base) (Namespace.Canonical.closed hp)
      (by decide)]
    simp [reference]
  refine ⟨hlocal, ?_, _, runner_of_digest rfl _, ?_⟩
  · rw [delivers_iff_hold? rfl hw (by rw [hlocal]; decide), hlocal]
    exact hheld
  · rw [GcRunner.stateAfter_eq]
    exact PlainStore.execute_erases (p := p.base) hp rfl _ _ hw hlost

end Provider

end BlobVault
