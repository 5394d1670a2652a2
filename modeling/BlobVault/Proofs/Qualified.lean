import BlobVault.Proofs.Answers
import BlobVault.Proofs.Caching.ReadAfterWrite
import BlobVault.Proofs.Integrity

/-!
# Keys that look qualified

Reads and deletions of a provider take a key that begins with the id and a colon for a qualified
one, and look for what follows. Writes take every key as it is. So what is written is always found
and deleted under the qualified form of its key, but under the key itself only if the key does not
look qualified. Digest keys never do.

1. `localKey_qualified`, `localKey_eq_self_iff`: which keys a provider takes as they are.
2. `writeBlobWithKey_spec`: a write that goes through stores its content under its key.
3. `delivers_iff_hold?`, `removes_iff`: what reads get and what a deletion removes.
4. `addresses_written_iff`: reads and deletions of what was written.
-/

namespace BlobVault

open Std (ExtTreeMap)
open KeyStrategy (Accepted)

namespace Provider

/-- A key with the qualifier of the provider. -/
def qualified (p : Provider) (key : String) : String := p.id ++ ":" ++ key

/-- A deletion of one key goes through and removes the object of another one, and nothing else. -/
def Removes (p : Provider) (w : World) (key removed : String) : Prop :=
  ∃ v, p.delete key w = .ok () v ∧ (p.base.drop w removed).Looks v

variable {p : Provider} {w v u : World} {key : String} {content : Bytes} {chunks : ContentStream}

/-! ## Qualifiers -/

theorem toList_qualified (p : Provider) (key : String) :
    (p.qualified key).toList = (p.id.toList ++ [':']) ++ key.toList := by
  unfold qualified
  rw [String.toList_append, String.toList_append]
  rfl

/-- A provider takes its own qualifier off, and nothing more. -/
theorem localKey_qualified (p : Provider) (key : String) : p.localKey (p.qualified key) = key := by
  unfold localKey
  rw [Namespace.dropFront?_eq_some_iff.2 (p.toList_qualified key)]
  exact String.ofList_toList

theorem localKey_of_not_qualified (h : ∀ rest, key ≠ p.qualified rest) : p.localKey key = key := by
  unfold localKey
  cases hdrop : Text.dropFront? (p.id.toList ++ [':']) key.toList with
  | none => rfl
  | some rest =>
    refine absurd ?_ (h (String.ofList rest))
    rw [← String.toList_inj, toList_qualified, String.toList_ofList]
    exact Namespace.dropFront?_eq_some_iff.1 hdrop

theorem ne_qualified (p : Provider) (key : String) : key ≠ p.qualified key := by
  intro heq
  have hlength := congrArg (fun text => text.toList.length) heq
  simp only [toList_qualified, List.length_append, List.length_singleton] at hlength
  omega

/-- Exactly the keys that do not look qualified are taken as they are. -/
theorem localKey_eq_self_iff : p.localKey key = key ↔ ∀ rest, key ≠ p.qualified rest := by
  refine ⟨?_, localKey_of_not_qualified⟩
  rintro h rest rfl
  rw [localKey_qualified] at h
  exact p.ne_qualified rest h

/-- Digest keys do not look qualified. -/
theorem not_qualified_of_digest {algorithm : DigestAlgorithm} (hkeys : p.keys = .digest algorithm)
    (hkey : p.keys.validate key = .ok ()) (rest : String) : key ≠ p.qualified rest := by
  have hdigest : algorithm.isDigest key = true := by
    rw [hkeys] at hkey
    by_contra hnot
    have hrefused : (KeyStrategy.digest algorithm).validate key =
        .error (.invalid (.malformedDigest key algorithm)) := if_neg hnot
    rw [hrefused] at hkey
    exact absurd hkey nofun
  exact localKey_eq_self_iff.1 (localKey_of_isDigest hdigest) rest

/-- What follows the qualifier in an accepted key asks for no range. -/
theorem splitKey_of_qualified {rest : String} (h : Accepted (p.qualified rest)) :
    ByteRange.splitKey rest = (rest, none) := by
  apply ByteRange.splitKey_of_notMem
  intro hmem
  apply h.plainChars_and_separator.2
  rw [toList_qualified]
  exact List.mem_append_right _ hmem

/-- What follows the qualifier in an accepted key has another address than the key. -/
theorem address_of_qualified (hp : p.base.Closed) {rest : String}
    (h : Accepted (p.qualified rest)) :
    p.base.address rest ≠ p.base.address (p.qualified rest) := by
  intro heq
  have hpath : p.remote.space.pathFor rest = p.remote.space.pathFor (p.qualified rest) :=
    congrArg ObjectPath.mk heq
  by_cases hempty : rest.toList = []
  · obtain rfl : rest = "" := String.toList_inj.1 hempty
    exact Namespace.pathFor_empty_ne hp h.plainChars hpath
  · have hplain : PlainChars rest.toList := by
      refine ⟨hempty, fun hmem => h.plainChars.2 ?_⟩
      rw [toList_qualified]
      exact List.mem_append_right _ hmem
    exact p.ne_qualified rest (Namespace.pathFor_inj hp hplain h.plainChars hpath)

/-! ## Writes -/

/-- The request of a write under a key that the strategy accepts. -/
def requestUnder (p : Provider) (key : String) (chunks : ContentStream) : WriteRequest :=
  { source := .stream chunks, observer? := p.keys.observer?, key? := some key }

theorem writeBlobWithKey_accepted (hp : p.cache? = none) (hkey : p.keys.validate key = .ok ())
    (chunks : ContentStream) :
    p.writeBlobWithKey key chunks = p.base.toStore.write (p.requestUnder key chunks) := by
  unfold writeBlobWithKey
  rw [hkey, store_of_no_cache hp]
  rfl

/-- A given key is settled on, whatever the strategy observes. -/
theorem plan_requestUnder (p : Provider) (key : String) (chunks : ContentStream) (w : World) :
    (p.requestUnder key chunks).plan w =
      match chunks.gather with
      | (_, some e) => .error (.io e)
      | (content, none) => .ok (key, .ok content) := by
  unfold WriteRequest.plan requestUnder
  dsimp only
  cases chunks.gather with
  | mk content failure? =>
    cases failure? with
    | some e => rfl
    | none => exact WriteRequest.keyed_given (WriteRequest.key?_observed _ _) _

/-- Where the store cannot make a temporary file, nothing is written. -/
theorem writeBlobWithKey_no_temps (hp : p.cache? = none) (hkey : p.keys.validate key = .ok ())
    (htemps : w.temps? p.remote.tempDir = none) (chunks : ContentStream) :
    p.writeBlobWithKey key chunks w = .error (.io (w.tempFailure p.remote.tempDir)) w := by
  rw [writeBlobWithKey_accepted hp hkey, PlainStore.write_eq]
  unfold WriteRequest.withLocal requestUnder
  exact withTemp_none htemps

/-- A write under a free key that goes through gives the key, and its content is stored there. -/
theorem writeBlobWithKey_spec (hp : p.cache? = none) (hkey : p.keys.validate key = .ok ())
    (hw : p.base.Honest w) (hfree : p.hold? w key = none) {k : String}
    (hrun : p.writeBlobWithKey key chunks w = .ok k v) :
    k = key ∧ ∃ content, chunks.complete? = some content ∧ (p.base.put w key content).Looks v := by
  cases htemps : w.temps? p.remote.tempDir with
  | none =>
    rw [writeBlobWithKey_no_temps hp hkey htemps] at hrun
    exact absurd hrun nofun
  | some files =>
    rw [writeBlobWithKey_accepted hp hkey] at hrun
    have hspec := PlainStore.write_spec hw (r := p.requestUnder key chunks)
      (fun _ _ => ⟨files, htemps⟩)
    rw [plan_requestUnder] at hspec
    have hend := hspec.ok_of_eq hrun
    unfold ContentStream.complete?
    cases hgather : chunks.gather with
    | mk content failure? =>
      rw [hgather] at hend
      cases failure? with
      | some e =>
        rcases hend with ⟨_, h, -⟩ | ⟨_, h, -⟩ <;> exact absurd h nofun
      | none =>
        rcases hend with ⟨bytes, h, hv⟩ | ⟨_, h, -⟩
        · obtain ⟨rfl, hbytes⟩ := Prod.mk.inj (Except.ok.inj h)
          obtain rfl := Except.ok.inj hbytes
          rw [PlainStore.accept_of_free hfree] at hv
          exact ⟨rfl, content, rfl, hv⟩
        · exact absurd (Prod.mk.inj (Except.ok.inj h)).2 nofun

/-- Without faults a write of content goes through. -/
theorem writeBlobWithKey_complete (hp : p.cache? = none) (hkey : p.keys.validate key = .ok ())
    (hw : p.Ready w) (hcomplete : chunks.complete? = some content) :
    ∃ v, p.writeBlobWithKey key chunks w = .ok key v := by
  have hplan : (p.requestUnder key chunks).plan w = .ok (key, .ok content) := by
    unfold ContentStream.complete? at hcomplete
    rw [plan_requestUnder]
    split at hcomplete
    · rename_i bytes hgather
      obtain rfl := Option.some.inj hcomplete
      rw [hgather]
    · exact absurd hcomplete nofun
  obtain ⟨v, hrun, -⟩ := PlainStore.write_ok hw.quiet hw.temps hplan
  rw [← writeBlobWithKey_accepted hp hkey] at hrun
  exact ⟨v, hrun⟩

/-! ## Reads and deletions -/

/-- A deletion removes the object of the key without a qualifier. -/
theorem removes_localKey (hp : p.cache? = none) (hw : p.base.Quiet w) (key : String) :
    p.Removes w key (p.localKey key) := by
  obtain ⟨_, v, hrun, hv⟩ := (p.base.delete_spec w (p.localKey key)).exists_ok
  refine ⟨v, ?_, hv.resolve_right fun h => h.2 hw⟩
  unfold delete
  rw [store_of_no_cache hp]
  exact hrun

/-- A deletion removes a held object just if it is the one of the key without a qualifier. -/
theorem removes_iff (hp : p.cache? = none) (hw : p.base.Quiet w) {removed : String}
    (hheld : p.hold? w removed ≠ none) :
    p.Removes w key removed ↔ p.base.address (p.localKey key) = p.base.address removed := by
  obtain ⟨v, hrun, hlooks⟩ := removes_localKey hp hw key
  constructor
  · rintro ⟨v', hrun', hlooks'⟩
    rw [hrun] at hrun'
    obtain ⟨-, rfl⟩ := EStateM.Result.ok.inj hrun'
    -- the object is gone, so it is the one that was dropped
    have hgone : p.base.hold? (p.base.drop w (p.localKey key)) removed = none := by
      rw [← PlainStore.hold?_of_looks hlooks, PlainStore.hold?_of_looks hlooks',
        PlainStore.hold?_drop_self]
    unfold PlainStore.hold? PlainStore.drop at hgone
    rw [PlainStore.objects_setObjects, ExtTreeMap.getElem?_erase] at hgone
    split at hgone
    · rename_i hsame
      exact Std.LawfulEqCmp.eq_of_compare hsame
    · exact absurd hgone hheld
  · intro heq
    refine ⟨v, hrun, ?_⟩
    unfold PlainStore.drop at hlooks ⊢
    rwa [heq] at hlooks

/-- **Addressing what was written.** Take a provider without a cache and a free key that its
strategy accepts. A write of content under it goes through where no fault strikes. Whenever such a
write goes through, it gives the key and puts the content under its path alone; and later, without
faults,

* the qualified form of the key reads the content, and deletes its object and no other;
* with a digest strategy the key itself does the same;
* the key itself reads the content exactly if it does not look qualified, or if what follows the
  qualifier holds the same content; and it deletes its object and no other exactly if it does not
  look qualified. -/
theorem addresses_written_iff (p : Provider) (hcache : p.cache? = none)
    (hp : p.remote.space.Canonical) (key : String) (hkey : p.keys.validate key = .ok ())
    (chunks : ContentStream) (w : World) (hw : p.base.Honest w) (hfree : p.hold? w key = none) :
    (p.Ready w → chunks.complete? ≠ none → ∃ v, p.writeBlobWithKey key chunks w = .ok key v) ∧
    ∀ k v, p.writeBlobWithKey key chunks w = .ok k v → k = key ∧
      ∃ content, chunks.complete? = some content ∧ (p.base.put w key content).Looks v ∧
        ∀ u, v.Later u → p.base.Quiet u →
          p.Delivers u (p.qualified k) content ∧ p.Removes u (p.qualified k) k ∧
          (∀ algorithm, p.keys = .digest algorithm →
            p.Delivers u k content ∧ p.Removes u k k) ∧
          (p.Delivers u k content ↔
            ∀ rest, k = p.qualified rest → p.hold? w rest = some content) ∧
          (p.Removes u k k ↔ ∀ rest, k ≠ p.qualified rest) := by
  have hclosed : p.base.Closed := Namespace.Canonical.closed hp
  have haccepted : Accepted key := ⟨p.keys, hkey⟩
  refine ⟨fun hready hne => ?_, fun k v hrun => ?_⟩
  · obtain ⟨content, hcomplete⟩ := Option.ne_none_iff_exists'.1 hne
    exact writeBlobWithKey_complete hcache hkey hready hcomplete
  obtain ⟨rfl, content, hcomplete, hlooks⟩ := writeBlobWithKey_spec hcache hkey hw hfree hrun
  refine ⟨rfl, content, hcomplete, hlooks, fun u hlater hu => ?_⟩
  have hheld : p.hold? u k = some content :=
    (hlater.hold? p.base k).trans
      ((PlainStore.hold?_of_looks hlooks p.base k).trans (PlainStore.hold?_put_self content))
  have hpresent : p.hold? u k ≠ none := by
    rw [hheld]
    exact nofun
  -- what a key stands for that does not look qualified
  have hbare : (∀ rest, k ≠ p.qualified rest) → p.Delivers u k content ∧ p.Removes u k k := by
    intro hnot
    have hlocal := localKey_of_not_qualified hnot
    refine ⟨?_, (removes_iff hcache hu hpresent).2 (by rw [hlocal])⟩
    rw [delivers_iff_hold? hcache hu (by rw [hlocal, haccepted.splitKey]), hlocal]
    exact hheld
  -- and what it stands for otherwise
  have hrest : ∀ rest, k = p.qualified rest → p.hold? u rest = p.hold? w rest := by
    rintro rest rfl
    refine (hlater.hold? p.base rest).trans
      ((PlainStore.hold?_of_looks hlooks p.base rest).trans ?_)
    unfold PlainStore.hold? PlainStore.put hold? PlainStore.hold?
    rw [PlainStore.objects_setObjects, ExtTreeMap.getElem?_insert, if_neg]
    rw [Std.LawfulEqCmp.compare_eq_iff_eq]
    exact (address_of_qualified hclosed haccepted).symm
  refine ⟨?_, ?_, ?_, ?_, ?_⟩
  · rw [delivers_iff_hold? hcache hu] <;> rw [localKey_qualified]
    · exact hheld
    · exact haccepted.splitKey
  · rw [removes_iff hcache hu hpresent, localKey_qualified]
  · exact fun algorithm hkeys => hbare (not_qualified_of_digest hkeys hkey)
  · constructor
    · rintro hdelivers rest rfl
      rw [delivers_iff_hold? hcache hu] at hdelivers
      · rwa [localKey_qualified, hrest rest rfl] at hdelivers
      · rw [localKey_qualified, splitKey_of_qualified haccepted]
    · intro h
      by_cases hnot : ∀ rest, k ≠ p.qualified rest
      · exact (hbare hnot).1
      · simp only [ne_eq, not_forall, not_not] at hnot
        obtain ⟨rest, rfl⟩ := hnot
        rw [delivers_iff_hold? hcache hu, localKey_qualified, hrest rest rfl]
        · exact h rest rfl
        · rw [localKey_qualified, splitKey_of_qualified haccepted]
  · refine ⟨?_, fun hnot => (hbare hnot).2⟩
    rintro hremoves rest rfl
    rw [removes_iff hcache hu hpresent, localKey_qualified] at hremoves
    exact address_of_qualified hclosed haccepted hremoves

/-- A key that looks qualified by another id is read and deleted as it is. -/
theorem addresses_written_with_other_id :
    let p : Provider := {
      id := "vault"
      keys := .supplied
      remote := {
        name := "vault"
        location := ⟨"account", "box"⟩
        container := "box"
        space := ⟨"cas/"⟩
        tempDir := .scratch "temps" } }
    let w : World := { scratch := ExtTreeMap.insert ∅ "temps" ∅ }
    p.remote.space.Canonical ∧ p.keys.validate "other:k" = .ok () ∧ p.base.Honest w ∧
      p.hold? w "other:k" = none ∧
      ∃ v, p.writeBlobWithKey "other:k" [.ok [120]] w = .ok "other:k" v ∧
        p.Delivers v "other:k" [120] ∧ p.Delivers v "vault:other:k" [120] ∧
        p.Removes v "other:k" "other:k" := by
  intro p w
  have hw : p.Ready w := ⟨World.quiet_of_containers rfl _, ∅, ExtTreeMap.getElem?_insert_self⟩
  have hhonest : p.base.Honest w := hw.quiet.honest
  have hcanonical : p.remote.space.Canonical := by decide
  have hkey : p.keys.validate "other:k" = .ok () := by decide
  have hfree : p.hold? w "other:k" = none := PlainStore.hold?_of_containers rfl
  obtain ⟨hgoes, hall⟩ := addresses_written_iff p rfl hcanonical "other:k" hkey [.ok [120]] w
    hhonest hfree
  obtain ⟨v, hrun⟩ := hgoes hw nofun
  obtain ⟨-, content, hcontent, hlooks, hreads⟩ := hall _ v hrun
  obtain rfl : [120] = content := Option.some.inj hcontent
  have hquiet : p.base.Quiet v := (hw.quiet.setObjects _).of_looks hlooks
  have hbare : ∀ rest, "other:k" ≠ p.qualified rest :=
    localKey_eq_self_iff.1 (show p.localKey "other:k" = "other:k" by decide)
  obtain ⟨hqualified, -, -, hdelivers, hremoves⟩ := hreads v ⟨rfl, fun _ => rfl⟩ hquiet
  exact ⟨hcanonical, hkey, hhonest, hfree, v, hrun,
    hdelivers.2 fun rest h => absurd h (hbare rest), hqualified, hremoves.2 hbare⟩

/-- A key that looks qualified by the id of the provider is accepted and its content is stored. But
under the key no blob is found and none is deleted. -/
theorem not_found_under_key_with_own_id :
    let p : Provider := {
      id := "vault"
      keys := .supplied
      remote := {
        name := "vault"
        location := ⟨"account", "box"⟩
        container := "box"
        tempDir := .scratch "temps" } }
    let w : World := { scratch := ExtTreeMap.insert ∅ "temps" ∅ }
    p.remote.space.Canonical ∧ p.keys.validate "vault:k" = .ok () ∧ p.Ready w ∧
      p.hold? w "vault:k" = none ∧
      ∃ v, p.writeBlobWithKey "vault:k" [.ok [120]] w = .ok "vault:k" v ∧ p.base.Quiet v ∧
        p.hold? v "vault:k" = some [120] ∧ (∃ u, p.openStream "vault:k" v = .ok none u) ∧
        ¬ p.Delivers v "vault:k" [120] ∧ ¬ p.Removes v "vault:k" "vault:k" := by
  intro p w
  have hw : p.Ready w := ⟨World.quiet_of_containers rfl _, ∅, ExtTreeMap.getElem?_insert_self⟩
  have hkey : p.keys.validate "vault:k" = .ok () := by decide
  have hfree : ∀ key, p.hold? w key = none := fun _ => PlainStore.hold?_of_containers rfl
  obtain ⟨v, hrun⟩ := writeBlobWithKey_complete (p := p) rfl hkey hw
    (show ContentStream.complete? [.ok [120]] = some [120] from rfl)
  obtain ⟨-, content, hcontent, hlooks⟩ :=
    writeBlobWithKey_spec (p := p) rfl hkey hw.quiet.honest (hfree _) hrun
  obtain rfl : [120] = content := Option.some.inj hcontent
  have hquiet : p.base.Quiet v := (hw.quiet.setObjects _).of_looks hlooks
  have hheld : p.hold? v "vault:k" = some [120] :=
    (PlainStore.hold?_of_looks hlooks p.base _).trans (PlainStore.hold?_put_self [120])
  have hlocal : p.localKey "vault:k" = "k" := by decide
  have hnone : p.hold? v "k" = none := by
    refine (PlainStore.hold?_of_looks hlooks p.base _).trans
      ((PlainStore.hold?_put_of_ne (p := p.base) (.inl rfl) ⟨_, hkey⟩ ⟨.supplied, by decide⟩
        (by decide) [120]).trans (hfree "k"))
  refine ⟨by decide, hkey, hw, hfree _, v, hrun, hquiet, hheld, ?_, ?_, ?_⟩
  · obtain ⟨u, hopen, -⟩ := PlainStore.stream_run hquiet "k"
    refine ⟨u, ?_⟩
    unfold openStream
    rw [hlocal, store_of_no_cache rfl, hopen, show p.base.hold? v "k" = none from hnone]
    rfl
  · rw [delivers_iff_hold? rfl hquiet (by rw [hlocal]; decide), hlocal, hnone]
    exact nofun
  · rw [removes_iff rfl hquiet (by rw [hheld]; exact nofun), hlocal]
    decide

end Provider

end BlobVault
