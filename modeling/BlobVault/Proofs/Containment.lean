import BlobVault.Proofs.KeyStrategy

/-!
# Keys stay in their namespace

A store writes a key behind the root of its namespace, whatever the key is made of, and cuts the
whole into segments. The root is closed, so the cut after it never falls inside a segment: the path
of a key has the encoded segments of the root and behind them those of the key. One dot or two are
encoded where they are a segment, so no key leads out of the namespace. The keys that a strategy
accepts are one segment each and have paths of their own.

1. `ObjectPath.encodeSegment_ne_dots`: no segment of a path is made of one or two dots.
2. `ObjectPath.isBelow_ofChars`: a path with more segments lies below.
3. `Namespace.segments_pathFor_ofText`: the segments of the path of a key.
4. `Namespace.below_pathFor_iff`: which keys lie strictly below the namespace.
5. `Namespace.keys_contained`: where all keys lie.
-/

namespace BlobVault

namespace ObjectPath

/-- A text that reads back as itself, but is encoded otherwise, is the encoded form of nothing. -/
theorem encodeSegment_ne_of_unescape {text : List Char}
    (hsame : unescape text = text.flatMap String.utf8EncodeChar) (hne : encodeSegment text ≠ text)
    (segment : List Char) : encodeSegment segment ≠ text := by
  intro heq
  have hbytes := unescape_encodeSegment segment
  rw [heq, hsame] at hbytes
  obtain rfl := flatMap_utf8EncodeChar_inj hbytes
  exact hne heq

/-- No segment is encoded as one dot or as two. -/
theorem encodeSegment_ne_dots (segment : List Char) :
    encodeSegment segment ≠ ['.'] ∧ encodeSegment segment ≠ ['.', '.'] :=
  ⟨encodeSegment_ne_of_unescape (by decide) (by decide) segment,
    encodeSegment_ne_of_unescape (by decide) (by decide) segment⟩

/-- A path with the segments of another one and more behind them lies below it. -/
theorem isBelow_ofChars {top text : List Char} {rest : List (List Char)} (htop : parts top ≠ [])
    (hrest : rest ≠ []) (h : segmentsOf text = segmentsOf top ++ rest) :
    (ofChars text).isBelow (ofChars top) = true := by
  have hplain : ∀ s ∈ rest, s ≠ [] ∧ pathDelimiter ∉ s := fun s hs =>
    plain_of_mem_segmentsOf (h ▸ List.mem_append_right _ hs)
  refine Namespace.isBelow_iff.2 ⟨join rest, fun hnil => hrest ?_, ?_⟩
  · rw [← parts_join hplain, hnil, parts_nil]
  · unfold ofChars
    rw [String.toList_ofList, String.toList_ofList, h,
      join_append (segmentsOf_ne_nil htop) hrest]

end ObjectPath

open ObjectPath

namespace Namespace

/-- The path lies strictly below the namespace: listings that start at its top can show it. -/
def Below (n : Namespace) (p : ObjectPath) : Prop :=
  p.text ≠ "" ∧ ∀ top, n.top? = some top → p.isBelow top = true

variable {n : Namespace} {key : String}

/-- The path of a key has the segments of the beginning of paths and then those of the key. -/
theorem segments_pathFor_ofText (text key : String) :
    ((ofText text).pathFor key).segments = segmentsOf text.toList ++ segmentsOf key.toList := by
  unfold pathFor
  rw [segments_ofChars, segmentsOf_root_append (closed_ofText text)]
  unfold segmentsOf
  rw [parts_ofText]

/-- A key without a segment has the path of the namespace itself. -/
theorem pathFor_of_parts (h : n.Closed) (hkey : parts key.toList = []) :
    n.pathFor key = n.pathFor "" := by
  unfold pathFor
  refine ofChars_congr ?_
  rw [parts_root_append h, parts_root_append h, hkey]
  rfl

/-- The path of the namespace itself does not lie below it. -/
theorem not_below_pathFor_empty (n : Namespace) : ¬ n.Below (n.pathFor "") := by
  rintro ⟨hne, htop⟩
  have hpath : n.pathFor "" = ofChars n.root.toList := by
    unfold pathFor
    rw [String.toList_empty, List.append_nil]
  rw [hpath] at hne htop
  by_cases hroot : parts n.root.toList = []
  · refine hne ?_
    unfold ofChars segmentsOf
    rw [hroot]
    rfl
  · obtain ⟨rest, -, hrest⟩ := isBelow_iff.1 (htop _ (top?_eq_some_iff.2 ⟨hroot, rfl⟩))
    have hlength := congrArg List.length hrest
    rw [List.length_append, List.length_cons] at hlength
    omega

/-- The keys with a segment are the ones that lie strictly below the namespace. -/
theorem below_pathFor_iff (h : n.Closed) : n.Below (n.pathFor key) ↔ parts key.toList ≠ [] := by
  constructor
  · intro hbelow hkey
    rw [pathFor_of_parts h hkey] at hbelow
    exact n.not_below_pathFor_empty hbelow
  · intro hkey
    have hsegments := segmentsOf_ne_nil hkey
    refine ⟨fun hempty => hsegments ?_, fun top htop => ?_⟩
    · have hpath := segments_ofChars (n.root.toList ++ key.toList)
      unfold pathFor at hempty
      rw [segments, hempty, segmentsOf_root_append h, String.toList_empty, parts_nil] at hpath
      exact (List.append_eq_nil_iff.1 hpath.symm).2
    · obtain ⟨hroot, rfl⟩ := top?_eq_some_iff.1 htop
      exact isBelow_ofChars hroot hsegments (segmentsOf_root_append h key.toList)

/-- **Containment.** Below every beginning of paths, and for every text of a key, the path of the
key is made of the encoded nonempty segments of the beginning and then those of the key, none of
which is one dot or two. So it is the path of the namespace itself or, exactly if the key has a
segment, lies strictly below it. The keys that some strategy accepts lie exactly one segment below
it, and distinct ones have distinct paths. -/
theorem keys_contained (text : String) :
    (∀ key : String,
      ((ofText text).pathFor key).segments =
        (parts text.toList).map encodeSegment ++ (parts key.toList).map encodeSegment ∧
      IsProper ((ofText text).pathFor key).text ∧
      (∀ segment ∈ ((ofText text).pathFor key).segments,
        segment ≠ ['.'] ∧ segment ≠ ['.', '.']) ∧
      ((ofText text).pathFor key = (ofText text).pathFor "" ∨
        (ofText text).Below ((ofText text).pathFor key)) ∧
      ((ofText text).Below ((ofText text).pathFor key) ↔ parts key.toList ≠ [])) ∧
    (∀ key, KeyStrategy.Accepted key →
      ((ofText text).pathFor key).segments =
        (parts text.toList).map encodeSegment ++ [encodeSegment key.toList]) ∧
    ∀ key other, KeyStrategy.Accepted key → KeyStrategy.Accepted other →
      (ofText text).pathFor key = (ofText text).pathFor other → key = other := by
  have hclosed := closed_ofText text
  refine ⟨fun key => ⟨segments_pathFor_ofText text key, isProper_ofChars _,
    fun segment hsegment => ?_, ?_, below_pathFor_iff hclosed⟩, fun key hkey => ?_,
    fun key other hkey hother => ?_⟩
  · rw [segments_pathFor_ofText, segmentsOf, segmentsOf, ← List.map_append] at hsegment
    obtain ⟨part, -, rfl⟩ := List.mem_map.1 hsegment
    exact encodeSegment_ne_dots part
  · by_cases hkey : parts key.toList = []
    · exact .inl (pathFor_of_parts hclosed hkey)
    · exact .inr ((below_pathFor_iff hclosed).2 hkey)
  · obtain ⟨hne, hdelimiter⟩ := hkey.plainChars
    rw [segments_pathFor_ofText, segmentsOf_of_plain hne hdelimiter]
    rfl
  · exact pathFor_inj hclosed hkey.plainChars hother.plainChars

/-- Dots that would lead up stay below a root with empty segments and dots of its own, and a dot and
its encoded form are kept apart. -/
theorem keys_contained_with_dots :
    KeyStrategy.Accepted "." ∧ KeyStrategy.Accepted "%2E" ∧
      (ofText "/a//.").Below ((ofText "/a//.").pathFor "../..") ∧
      ((ofText "/a//.").pathFor "../..").segments =
        [['a'], "%2E".toList, "%2E%2E".toList, "%2E%2E".toList] ∧
      (ofText "/a//.").pathFor "." ≠ (ofText "/a//.").pathFor "%2E" := by
  have hdot : KeyStrategy.Accepted "." := ⟨.supplied, by decide⟩
  have hencoded : KeyStrategy.Accepted "%2E" := ⟨.supplied, by decide⟩
  obtain ⟨hall, -, hapart⟩ := keys_contained "/a//."
  obtain ⟨hsegments, -, -, -, hbelow⟩ := hall "../.."
  refine ⟨hdot, hencoded, hbelow.2 (by decide), hsegments.trans (by decide), fun heq => ?_⟩
  exact absurd (hapart "." "%2E" hdot hencoded heq) (by decide)

end Namespace

end BlobVault
