import BlobVault.Proofs.Copying.Lookup
import BlobVault.Proofs.Ranges

/-!
# Reads of a range

A key with two offsets after it asks a store that takes ranges for the bytes between them. Memory
stores cut them out of what they hold, remote stores look at the size of the object and fetch the
bytes, and caching stores pass the request on. All give the same bytes.

1. `ByteRange.bytes?`: the bytes between two offsets, as far as they are there.
2. `PlainStore.asked?_of_annotates`: what a read asks for.
3. `Store.readInto_of_range`: what the read of a text with a range leaves behind.
4. `Store.readInto_annotated`: what there is to find, and what is left behind.
-/

namespace BlobVault

open KeyStrategy (Accepted)
open Std (ExtTreeMap)

namespace ByteRange

/-- The bytes of some content from one offset to another, both included, as far as they are there;
none if the content ends before the first. -/
def bytes? (first last : Nat) (content : Bytes) : Option Bytes :=
  if first < content.length then
    some (content.extract first (min last (content.length - 1) + 1))
  else none

theorem part?_covering {first last : Nat} (hle : first ≤ last) (hmax : last < maxOffset)
    (content : Bytes) : part? (some (covering first last)) content = bytes? first last content := by
  unfold part? bytes?
  dsimp only
  rw [(toNat_covering hle hmax).1]
  split
  · rename_i hinside
    rw [window_covering hle hmax hinside]
  · rfl

theorem bytes?_eq_some_iff {first last : Nat} {content bytes : Bytes} :
    bytes? first last content = some bytes ↔ first < content.length ∧
      bytes = content.extract first (min last (content.length - 1) + 1) := by
  unfold bytes?
  rw [Option.ite_none_right_eq_some, Option.some_inj, eq_comm (a := bytes)]

theorem isSome_bytes? {first last : Nat} {content : Bytes} :
    (bytes? first last content).isSome ↔ first < content.length := by
  rw [Option.isSome_iff_exists]
  simp only [bytes?_eq_some_iff, exists_and_left, exists_eq, and_true]

/-- There is a first byte, and there are as many as there are offsets up to the last one or to the
end of the content. -/
theorem length_bytes? {first last : Nat} (hle : first ≤ last) {content bytes : Bytes}
    (h : bytes? first last content = some bytes) :
    bytes ≠ [] ∧ first + bytes.length = min last (content.length - 1) + 1 := by
  obtain ⟨hinside, rfl⟩ := bytes?_eq_some_iff.1 h
  have hlength : first + (content.extract first (min last (content.length - 1) + 1)).length =
      min last (content.length - 1) + 1 := by
    rw [List.extract_eq_take_drop, List.length_take, List.length_drop]
    omega
  refine ⟨fun hempty => ?_, hlength⟩
  rw [hempty, List.length_nil] at hlength
  omega

theorem Annotates.isAnnotated {text key : String} {first last : Nat} (hkey : key ≠ "")
    (htext : Annotates text key first last) : isAnnotated text = true := by
  unfold ByteRange.isAnnotated
  rw [splitKey_eq_some_iff.2 ⟨hkey, first, last, htext, rfl⟩]
  rfl

end ByteRange

/-- What a read of an annotated text gets from a plain store. -/
theorem PlainStore.asked?_of_annotates (p : PlainStore) (w : World) {text key : String}
    {first last : Nat} (hkey : key ≠ "") (htext : ByteRange.Annotates text key first last) :
    p.asked? w text =
      if p.allowsRange then (p.hold? w key).bind (ByteRange.bytes? first last)
      else p.hold? w text := by
  obtain ⟨x, y, -, -, -, hle, hmax⟩ := id htext
  unfold asked? target
  split
  · rw [ByteRange.splitKey_eq_some_iff.2 ⟨hkey, first, last, htext, rfl⟩]
    exact congrArg _ (funext (ByteRange.part?_covering hle hmax))
  · cases p.hold? w text <;> rfl

/-- What is put outside is in no cache. -/
theorem World.caches_place {dest : LocalPath} (hdest : dest.IsOutside) (w : World)
    (content : Bytes) : (w.place dest content).caches = w.caches := by
  cases dest with
  | caller name => rfl
  | detached => rfl
  | temp _ _ => exact hdest.elim
  | entry _ _ => exact hdest.elim

namespace Store

/-- What the read of a text that carries a range leaves behind: the bytes that it asks for in a file
that takes them, or nothing. Caches are passed by. -/
theorem readInto_of_range (s : Store) {w : World} (hw : s.base.Quiet w) {text : String}
    (htext : ByteRange.isAnnotated text = true) (dest : LocalPath) :
    match s.base.asked? w text with
    | some bytes => dest.IsOutside → w.Writable dest →
      ∃ v, s.readInto text dest w = .ok true v ∧ (w.place dest bytes).Looks v ∧
        v.read dest = .ok bytes ∧ v.caches = w.caches
    | none =>
      ∃ v, s.readInto text dest w = .ok false v ∧ w.Looks v ∧
        (∀ path, v.read path = w.read path) ∧ v.caches = w.caches := by
  obtain ⟨u, hlooks, hrun⟩ := PlainStore.readInto_run hw text dest
  rw [← readInto_of_isAnnotated htext] at hrun
  cases hasked : s.base.asked? w text with
  | none =>
    rw [hasked] at hrun
    exact ⟨u, hrun, hlooks, hlooks.read, by rw [hlooks.rest]⟩
  | some bytes =>
    rw [hasked] at hrun
    intro hdest hwritable
    have hu := hlooks.writable hwritable
    refine ⟨u.place dest bytes, hrun.trans (run_bind_ok (putFile_ok hu bytes) _),
      hlooks.place dest bytes, World.read_place hu bytes, ?_⟩
    rw [World.caches_place hdest, hlooks.rest]

/-- **Reads of a range.** Take a store of any kind, with any number of caches in any state, where no
fault stands in front of what it keeps its blobs in; and an accepted key with two offsets after it,
in whatever spelling. If the store takes ranges, the read finds something exactly if the key holds a
blob that reaches beyond the first offset; if not, exactly if the text itself holds a blob. In the
one case a file that takes content holds the bytes after it, of a range those up to the last offset
or to the end of the blob; in the other every file is as it was. The caches are as they were in
both. -/
theorem readInto_annotated (s : Store) {w : World} (hw : s.base.Quiet w) {text key : String}
    {first last : Nat} (hkey : Accepted key) (htext : ByteRange.Annotates text key first last)
    (dest : LocalPath) :
    let found? := if s.base.allowsRange then
        (s.base.hold? w key).bind (ByteRange.bytes? first last)
      else s.base.hold? w text
    (s.base.allowsRange = true →
      (found?.isSome ↔ ∃ content, s.base.hold? w key = some content ∧ first < content.length) ∧
      ∀ bytes, found? = some bytes → ∃ content, s.base.hold? w key = some content ∧
        bytes = content.extract first (min last (content.length - 1) + 1) ∧ bytes ≠ [] ∧
        first + bytes.length = min last (content.length - 1) + 1) ∧
    match found? with
    | some bytes => dest.IsOutside → w.Writable dest →
      ∃ v, s.readInto text dest w = .ok true v ∧ (w.place dest bytes).Looks v ∧
        v.read dest = .ok bytes ∧ v.caches = w.caches
    | none =>
      ∃ v, s.readInto text dest w = .ok false v ∧ w.Looks v ∧
        (∀ path, v.read path = w.read path) ∧ v.caches = w.caches := by
  intro found?
  obtain ⟨x, y, -, -, -, hle, -⟩ := id htext
  have hasked : s.base.asked? w text = found? := s.base.asked?_of_annotates w hkey.ne_empty htext
  have hrun := s.readInto_of_range hw (htext.isAnnotated hkey.ne_empty) dest
  rw [hasked] at hrun
  refine ⟨fun hallows => ?_, hrun⟩
  have hfound : found? = (s.base.hold? w key).bind (ByteRange.bytes? first last) := if_pos hallows
  rw [hfound]
  refine ⟨?_, fun bytes hbytes => ?_⟩
  · rw [Option.isSome_bind, Option.any_eq_true]
    simp only [ByteRange.isSome_bytes?]
  · obtain ⟨content, hheld, hbytes⟩ := Option.bind_eq_some_iff.1 hbytes
    exact ⟨content, hheld, (ByteRange.bytes?_eq_some_iff.1 hbytes).2,
      ByteRange.length_bytes? hle hbytes⟩

/-- The text asks for more than there is of three bytes behind a cache. -/
theorem readInto_annotated_past_end :
    let s : Store := .caching "front" { dir := "front", limits := ⟨1000, 10, 60⟩ } (.remote {
      name := "vault"
      location := ⟨"account", "box"⟩
      container := "box"
      space := ⟨"cas/"⟩
      allowsRange := true
      tempDir := .scratch "temps" })
    let w : World := ({} : World).setContainer "box"
      { objects := ExtTreeMap.insert ∅ "cas/k" [10, 20, 30] }
    s.base.Quiet w ∧ Accepted "k" ∧ ByteRange.Annotates "k;+1;0007" "k" 1 7 ∧
      ∃ v, s.readInto "k;+1;0007" (.caller "dest") w = .ok true v ∧
        v.read (.caller "dest") = .ok [20, 30] := by
  intro s w
  have hbox : w.container "box" = { objects := ExtTreeMap.insert ∅ "cas/k" [10, 20, 30] } :=
    World.container_setContainer_self _ _ _
  have hquiet : s.base.Quiet w := congrArg Container.faults hbox
  have hkey : Accepted "k" := ⟨.supplied, by decide⟩
  have htext : ByteRange.Annotates "k;+1;0007" "k" 1 7 :=
    ⟨['+', '1'], ['0', '0', '0', '7'], by decide, Text.plusDecimal?_eq_some_iff.1 (by decide),
      Text.plusDecimal?_eq_some_iff.1 (by decide), by decide, by decide⟩
  have hheld : s.base.hold? w "k" = some [10, 20, 30] := by
    show (w.container "box").objects[_]? = _
    rw [hbox, show PlainStore.address _ "k" = "cas/k" by decide]
    exact ExtTreeMap.getElem?_insert_self
  have hread := (s.readInto_annotated hquiet hkey htext (.caller "dest")).2
  rw [if_pos (show s.base.allowsRange = true from rfl), hheld] at hread
  have hwritable : w.Writable (.caller "dest") := fun node hnode => by
    exact absurd (ExtTreeMap.getElem?_empty.symm.trans hnode) nofun
  obtain ⟨v, hrun, -, hdest, -⟩ := hread trivial hwritable
  exact ⟨hquiet, hkey, htext, v, hrun, hdest⟩

end Store

end BlobVault
