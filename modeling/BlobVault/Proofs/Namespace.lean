import BlobVault.KeyStrategy
import BlobVault.Namespace
import BlobVault.Proofs.ObjectPath

/-!
# Keys and paths of a namespace

A root is closed if it is empty or ends with the delimiter, and canonical if it is a run of segments
that stand for themselves, each closed by the delimiter.

1. `pathFor_eq`: below a closed root, the path of a plain key is one segment, the encoded key,
   behind a text that depends on the root only; so distinct plain keys have distinct paths
   (`pathFor_inj`).
2. `pathFor_of_canonical`: below a canonical root the text is the root itself, and only there
   (`canonical_iff`).
3. `top?_eq_some_iff`: the top of a namespace is the path of its root.
4. `localKey?_eq_some_iff`, `isBelow_top`: a listed path stands for a key exactly if it is the root
   with that key behind it, and such a path lies below the top of the namespace. In a namespace that
   is not canonical no path does both (`canonical_of_localKey?`).
-/

namespace BlobVault

open ObjectPath

/-- A key is plain if it is not empty and holds no delimiter. -/
def PlainChars (key : List Char) : Prop := key ≠ [] ∧ pathDelimiter ∉ key

/-- A key is verbatim if it is plain and stands for itself in a path. -/
def Verbatim (key : String) : Prop := PlainChars key.toList ∧ encodeSegment key.toList = key.toList

/-- The encoded form of a key is verbatim for verbatim keys only. -/
theorem encodeSegment_of_verbatim {key : String}
    (h : Verbatim (String.ofList (encodeSegment key.toList))) :
    encodeSegment key.toList = key.toList := by
  obtain ⟨-, htwice⟩ := h
  rw [String.toList_ofList] at htwice
  exact encodeSegment_injective htwice

namespace Namespace

/-- The root is empty or ends with the delimiter. -/
def Closed (n : Namespace) : Prop :=
  n.root.toList = [] ∨ ∃ front, n.root.toList = front ++ [pathDelimiter]

/-- The root is a run of segments that stand for themselves, each closed by the delimiter. -/
def Canonical (n : Namespace) : Prop :=
  ∃ segments : List (List Char),
    (∀ s ∈ segments, PlainChars s ∧ encodeSegment s = s) ∧
      n.root.toList = segments.flatMap (· ++ [pathDelimiter])

theorem Canonical.closed {n : Namespace} (h : n.Canonical) : n.Closed := by
  obtain ⟨segments, -, hroot⟩ := h
  rcases List.eq_nil_or_concat segments with rfl | ⟨front, last, rfl⟩
  · exact .inl hroot
  · refine .inr ⟨front.flatMap (· ++ [pathDelimiter]) ++ last, ?_⟩
    rw [hroot]
    simp

/-! ## Paths of keys -/

/-- A closed root is cut from what follows it: no part reaches over its end. -/
theorem parts_root_append {n : Namespace} (h : n.Closed) (key : List Char) :
    parts (n.root.toList ++ key) = parts n.root.toList ++ parts key := by
  rcases h with h | ⟨front, h⟩
  · rw [h]
    rfl
  · rw [h, List.append_assoc, List.singleton_append, parts_append_delimiter,
      parts_append_delimiter, parts_nil, List.append_nil]

theorem parts_root_append_plain {n : Namespace} (h : n.Closed) {key : List Char}
    (hk : PlainChars key) : parts (n.root.toList ++ key) = parts n.root.toList ++ [key] := by
  rw [parts_root_append h, parts_of_plain hk.1 hk.2]

theorem segmentsOf_root_append {n : Namespace} (h : n.Closed) (key : List Char) :
    segmentsOf (n.root.toList ++ key) = segmentsOf n.root.toList ++ segmentsOf key := by
  unfold segmentsOf
  rw [parts_root_append h, List.map_append]

/-- What stands in front of the keys of a namespace, in encoded form. -/
def front (n : Namespace) : List Char :=
  (segmentsOf n.root.toList).flatMap (· ++ [pathDelimiter])

/-- The path of a plain key is the encoded key behind the front of the namespace. -/
theorem pathFor_eq {n : Namespace} (h : n.Closed) {key : String} (hk : PlainChars key.toList) :
    n.pathFor key = ⟨String.ofList (n.front ++ encodeSegment key.toList)⟩ := by
  unfold pathFor ofChars
  rw [segmentsOf_root_append h, segmentsOf_of_plain hk.1 hk.2, join_append_singleton]
  rfl

/-- Distinct plain keys have distinct paths. -/
theorem pathFor_inj {n : Namespace} (h : n.Closed) {a b : String} (ha : PlainChars a.toList)
    (hb : PlainChars b.toList) (heq : n.pathFor a = n.pathFor b) : a = b := by
  rw [pathFor_eq h ha, pathFor_eq h hb, ObjectPath.mk.injEq, String.ofList_inj] at heq
  exact String.toList_inj.1 (encodeSegment_injective (List.append_cancel_left heq))

/-- The path of a plain key has the key as its last segment. -/
theorem segments_pathFor {n : Namespace} (h : n.Closed) {key : String}
    (hk : PlainChars key.toList) :
    (n.pathFor key).segments = segmentsOf n.root.toList ++ [encodeSegment key.toList] := by
  unfold pathFor
  rw [segments_ofChars, segmentsOf_root_append h, segmentsOf_of_plain hk.1 hk.2]

/-- The path of a plain key is not the path of the root. -/
theorem pathFor_empty_ne {n : Namespace} (h : n.Closed) {key : String}
    (hk : PlainChars key.toList) : n.pathFor "" ≠ n.pathFor key := by
  intro heq
  have hsegments := congrArg segments heq
  rw [segments_pathFor h hk] at hsegments
  unfold pathFor at hsegments
  rw [segments_ofChars, String.toList_empty, List.append_nil] at hsegments
  have hlength := congrArg List.length hsegments
  rw [List.length_append, List.length_singleton] at hlength
  omega

theorem parts_flatMap {segments : List (List Char)} (h : ∀ s ∈ segments, PlainChars s) :
    parts (segments.flatMap (· ++ [pathDelimiter])) = segments := by
  have hparts := parts_flatMap_append h []
  rwa [List.append_nil, parts_nil, List.append_nil] at hparts

/-- The segments of a canonical root are encoded as they are. -/
theorem segmentsOf_of_canonical {n : Namespace} (h : n.Canonical) :
    segmentsOf n.root.toList = parts n.root.toList := by
  obtain ⟨segments, hs, hroot⟩ := h
  unfold segmentsOf
  rw [hroot, parts_flatMap fun s hs' => (hs s hs').1]
  exact (List.map_congr_left fun s hs' => (hs s hs').2).trans (List.map_id _)

theorem front_of_canonical {n : Namespace} (h : n.Canonical) : n.front = n.root.toList := by
  unfold front
  rw [segmentsOf_of_canonical h]
  obtain ⟨segments, hs, hroot⟩ := h
  rw [hroot, parts_flatMap fun s hs' => (hs s hs').1]

/-- A root is canonical exactly if it stands in front of its keys as it is. -/
theorem canonical_iff {n : Namespace} : n.Canonical ↔ n.front = n.root.toList := by
  refine ⟨front_of_canonical, fun h => ?_⟩
  have hsegments : segmentsOf n.root.toList = parts n.root.toList := by
    have hparts : parts n.front = segmentsOf n.root.toList :=
      parts_flatMap fun s hs => plain_of_mem_segmentsOf hs
    rw [h] at hparts
    exact hparts.symm
  refine ⟨parts n.root.toList, fun s hs => ⟨plain_of_mem_parts hs, ?_⟩, ?_⟩
  · unfold segmentsOf at hsegments
    exact List.map_eq_map_iff.1 (hsegments.trans (List.map_id _).symm) s hs
  · unfold front at h
    rw [← hsegments, h]

instance (n : Namespace) : Decidable n.Canonical := decidable_of_iff _ canonical_iff.symm

/-- The namespace of a text is closed. -/
theorem closed_ofText (text : String) : (ofText text).Closed := by
  unfold ofText normalize
  split
  · rename_i hnone
    exact .inl (List.getLast?_eq_none_iff.1 hnone)
  · rename_i c hlast
    split
    · rename_i hc
      obtain ⟨front, hfront⟩ := List.getLast?_eq_some_iff.1 hlast
      exact .inr ⟨front, hc ▸ hfront⟩
    · refine .inr ⟨text.toList, ?_⟩
      rw [String.toList_append]
      rfl

/-- Closing a beginning with a delimiter adds no segment. -/
theorem parts_ofText (text : String) : parts (ofText text).root.toList = parts text.toList := by
  unfold ofText normalize
  split
  · rfl
  · split
    · rfl
    · rw [String.toList_append]
      exact (parts_append_delimiter text.toList []).trans (List.append_nil _)

/-- Below a canonical root the path of a plain key is the encoded key behind the root. -/
theorem pathFor_of_canonical {n : Namespace} (h : n.Canonical) {key : String}
    (hk : PlainChars key.toList) :
    n.pathFor key = ⟨String.ofList (n.root.toList ++ encodeSegment key.toList)⟩ := by
  rw [pathFor_eq h.closed hk, front_of_canonical h]

/-! ## Listed paths -/

theorem dropFront?_eq_some_iff {front text rest : List Char} :
    Text.dropFront? front text = some rest ↔ text = front ++ rest := by
  induction front generalizing text with
  | nil =>
    show some text = some rest ↔ text = rest
    rw [Option.some_inj]
  | cons c front ih =>
    cases text with
    | nil => simp [Text.dropFront?]
    | cons d text =>
      rw [Text.dropFront?, List.cons_append, List.cons.injEq]
      by_cases h : c = d
      · rw [if_pos h, ih]
        exact ⟨fun ht => ⟨h.symm, ht⟩, fun ht => ht.2⟩
      · rw [if_neg h]
        exact ⟨fun ht => by simp at ht, fun ht => absurd ht.1.symm h⟩

/-- A path stands for a key exactly if it is the root with that key, a plain one, behind it. -/
theorem localKey?_eq_some_iff {n : Namespace} {p : ObjectPath} {key : String} :
    n.localKey? p = some key ↔
      PlainChars key.toList ∧ p.text = String.ofList (n.root.toList ++ key.toList) := by
  have htext : ∀ rest, p.text.toList = n.root.toList ++ rest ↔
      p.text = String.ofList (n.root.toList ++ rest) := by
    intro rest
    rw [← String.toList_inj, String.toList_ofList]
  unfold localKey?
  cases hdrop : Text.dropFront? n.root.toList p.text.toList with
  | none =>
    constructor
    · intro h
      simp at h
    · rintro ⟨-, h⟩
      rw [← htext, ← dropFront?_eq_some_iff, hdrop] at h
      simp at h
  | some rest =>
    have hrest := dropFront?_eq_some_iff.1 hdrop
    show (if rest = [] ∨ pathDelimiter ∈ rest then none else some (String.ofList rest)) = _ ↔ _
    by_cases hplain : rest = [] ∨ pathDelimiter ∈ rest
    · rw [if_pos hplain]
      constructor
      · intro h
        simp at h
      · rintro ⟨⟨hne, hd⟩, h⟩
        rw [← htext, hrest, List.append_cancel_left_eq] at h
        rcases hplain with hnil | hmem
        · exact absurd (h.symm.trans hnil) hne
        · exact absurd (h ▸ hmem) hd
    · rw [if_neg hplain, Option.some_inj, ← htext, hrest, List.append_cancel_left_eq]
      rw [not_or] at hplain
      constructor
      · rintro rfl
        rw [String.toList_ofList]
        exact ⟨hplain, rfl⟩
      · rintro ⟨-, h⟩
        rw [h, String.ofList_toList]

/-! ## The top of a namespace -/

/-- The delimiters at the end of the root add no part. -/
theorem parts_trimmedRoot (n : Namespace) : parts n.trimmedRoot = parts n.root.toList := by
  have hroot : n.root.toList =
      n.trimmedRoot ++ (n.root.toList.reverse.takeWhile (· = pathDelimiter)).reverse := by
    unfold trimmedRoot
    rw [← List.reverse_append, List.takeWhile_append_dropWhile, List.reverse_reverse]
  conv_rhs => rw [hroot]
  refine (parts_append_delimiters fun c hc => ?_).symm
  have hdelimiter := List.mem_takeWhile_imp (List.mem_reverse.1 hc)
  exact of_decide_eq_true hdelimiter

theorem trimmedRoot_eq_nil_iff (n : Namespace) :
    n.trimmedRoot = [] ↔ parts n.root.toList = [] := by
  unfold trimmedRoot
  rw [List.reverse_eq_nil_iff, List.dropWhile_eq_nil_iff, parts_eq_nil_iff]
  simp

/-- A namespace has a top if its root has a segment, and then it is the path of the root. -/
theorem top?_eq_some_iff {n : Namespace} {top : ObjectPath} :
    n.top? = some top ↔ parts n.root.toList ≠ [] ∧ top = ofChars n.root.toList := by
  unfold top?
  by_cases h : parts n.root.toList = []
  · rw [if_pos (n.trimmedRoot_eq_nil_iff.2 h)]
    exact ⟨nofun, fun htop => absurd h htop.1⟩
  · rw [if_neg (n.trimmedRoot_eq_nil_iff.not.2 h), ofChars_congr n.parts_trimmedRoot,
      Option.some_inj, eq_comm, and_iff_right h]

theorem isBelow_iff {p top : ObjectPath} :
    p.isBelow top = true ↔
      ∃ rest, rest ≠ [] ∧ p.text.toList = top.text.toList ++ pathDelimiter :: rest := by
  unfold isBelow
  constructor
  · intro h
    split at h
    · rename_i d c rest hdrop
      rw [beq_iff_eq] at h
      exact ⟨c :: rest, List.cons_ne_nil _ _, h ▸ dropFront?_eq_some_iff.1 hdrop⟩
    · exact absurd h nofun
  · rintro ⟨rest, hne, htext⟩
    rw [dropFront?_eq_some_iff.2 htext]
    cases rest with
    | nil => exact absurd rfl hne
    | cons c rest => rfl

/-- The objects whose path is a canonical root with something behind it lie below its top. -/
theorem isBelow_top {n : Namespace} (h : n.Canonical) {top : ObjectPath} (htop : n.top? = some top)
    {p : ObjectPath} {rest : List Char} (hne : rest ≠ [])
    (hp : p.text = String.ofList (n.root.toList ++ rest)) : p.isBelow top = true := by
  obtain ⟨hsome, rfl⟩ := top?_eq_some_iff.1 htop
  have hroot : n.root.toList = join (segmentsOf n.root.toList) ++ [pathDelimiter] :=
    (front_of_canonical h).symm.trans (flatMap_delimiter_eq_join (segmentsOf_ne_nil hsome))
  refine isBelow_iff.2 ⟨rest, hne, ?_⟩
  rw [hp, String.toList_ofList]
  conv_lhs => rw [hroot]
  unfold ofChars
  rw [String.toList_ofList, List.append_assoc, List.singleton_append]

/-- Only in a canonical namespace does a path below the top stand for a key. -/
theorem canonical_of_localKey? {n : Namespace} (h : n.Closed) {p : ObjectPath} {key : String}
    (hproper : IsProper p.text) (htop : ∀ top, n.top? = some top → p.isBelow top = true)
    (hkey : n.localKey? p = some key) : n.Canonical := by
  obtain ⟨hplain, htext⟩ := localKey?_eq_some_iff.1 hkey
  have hparts := parts_root_append_plain h hplain
  -- the root is its parts, each closed
  have hroot : n.root.toList = (parts n.root.toList).flatMap (· ++ [pathDelimiter]) := by
    unfold IsProper at hproper
    rw [htext, String.toList_ofList, hparts, join_append_singleton] at hproper
    exact (List.append_cancel_right hproper).symm
  suffices heq : parts n.root.toList = segmentsOf n.root.toList by
    rw [canonical_iff, front, ← heq]
    exact hroot.symm
  by_cases hnil : parts n.root.toList = []
  · rw [segmentsOf, hnil]
    rfl
  -- the top is the front without its last delimiter
  obtain ⟨rest, -, hrest⟩ := isBelow_iff.1 (htop _ (top?_eq_some_iff.2 ⟨hnil, rfl⟩))
  have hfront : n.root.toList ++ key.toList = n.front ++ rest := by
    unfold ofChars at hrest
    rw [htext, String.toList_ofList, String.toList_ofList] at hrest
    rw [hrest, front, flatMap_delimiter_eq_join (segmentsOf_ne_nil hnil)]
    simp
  have happend : parts n.root.toList ++ [key.toList] =
      segmentsOf n.root.toList ++ parts rest := by
    rw [← hparts, hfront]
    exact parts_flatMap_append (fun s hs => plain_of_mem_segmentsOf hs) _
  exact (List.append_inj happend (by rw [segmentsOf, List.length_map])).1

end Namespace

/-! ## Digest keys -/

theorem Hex.toNat_of_isLowerDigit {c : Char} (h : isLowerDigit c = true) :
    (48 ≤ c.toNat ∧ c.toNat ≤ 57) ∨ (97 ≤ c.toNat ∧ c.toNat ≤ 102) := by
  unfold isLowerDigit at h
  rw [Bool.or_eq_true, Bool.and_eq_true, Bool.and_eq_true] at h
  simp only [decide_eq_true_eq, Char.le_def, UInt32.le_iff_toNat_le] at h
  exact h

theorem ObjectPath.isSafe_of_isLowerDigit {c : Char} (h : Hex.isLowerDigit c = true) :
    isSafe c = true := by
  have hc := Hex.toNat_of_isLowerDigit h
  have hnone : reserved.filter Hex.isLowerDigit = [] := by decide
  have hmem : c ∉ reserved := fun hmem => List.filter_eq_nil_iff.1 hnone c hmem h
  unfold isSafe
  rw [Bool.and_eq_true, Bool.and_eq_true, decide_eq_true_eq, decide_eq_true_eq]
  refine ⟨by omega, ?_⟩
  simpa using hmem

namespace DigestAlgorithm

variable {algorithm : DigestAlgorithm} {key : String}

theorem length_of_isDigest (h : algorithm.isDigest key = true) :
    key.toList.length = algorithm.hexLength := by
  unfold isDigest at h
  rw [Bool.and_eq_true, beq_iff_eq] at h
  exact h.1

theorem isLowerDigit_of_isDigest (h : algorithm.isDigest key = true) :
    ∀ c ∈ key.toList, Hex.isLowerDigit c = true := by
  unfold isDigest at h
  rw [Bool.and_eq_true, List.all_eq_true] at h
  exact h.2

/-- Digest keys are plain. -/
theorem plainChars_of_isDigest (h : algorithm.isDigest key = true) : PlainChars key.toList := by
  constructor
  · intro hnil
    have := length_of_isDigest h
    rw [hnil] at this
    cases algorithm <;> simp [hexLength] at this
  · intro hmem
    have := isLowerDigit_of_isDigest h _ hmem
    revert this
    decide

/-- Digest keys stand for themselves in a path. -/
theorem encodeSegment_of_isDigest (h : algorithm.isDigest key = true) :
    encodeSegment key.toList = key.toList := by
  have hlength := length_of_isDigest h
  have hne : ∀ cs : List Char, cs.length ≤ 2 → key.toList ≠ cs := by
    rintro cs hcs rfl
    cases algorithm <;> simp [hexLength] at hlength <;> omega
  refine encodeSegment_eq_self_iff.2 ⟨hne _ (by decide), hne _ (by decide), fun c hc => ?_⟩
  exact isSafe_of_isLowerDigit (isLowerDigit_of_isDigest h c hc)

theorem verbatim_of_isDigest (h : algorithm.isDigest key = true) : Verbatim key :=
  ⟨plainChars_of_isDigest h, encodeSegment_of_isDigest h⟩

end DigestAlgorithm

end BlobVault
