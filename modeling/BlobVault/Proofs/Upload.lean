import BlobVault.Upload
import BlobVault.Proofs.World

/-!
# What a write request asks for

`WriteRequest.plan` is the request as a function of the world: the key that it settles on and what
its local file holds, or how it fails before anything is stored.

1. `transfer_eq`, `inspect_eq`: what comes of content that is handled piece by piece.
2. `localize_bind_close`: what is done with localized content is done in the scope of a temporary
   file, `WriteRequest.withLocal`.
3. `withLocal_stream_spec`, `withLocal_file_spec`: that carries out the plan, whichever way the
   content comes.
-/

namespace BlobVault

open Std (ExtTreeMap)

/-- What arrives on a stream in front of its first failure, and the failure. -/
def ContentStream.gather : ContentStream → Bytes × Option IoError
  | [] => ([], none)
  | .error e :: _ => ([], some e)
  | .ok chunk :: r =>
    let (rest, failure?) := ContentStream.gather r
    (chunk ++ rest, failure?)

/-- The pieces in which it arrives. -/
def ContentStream.pieces : ContentStream → List Bytes
  | .ok chunk :: r => chunk :: ContentStream.pieces r
  | [] | .error _ :: _ => []

theorem ContentStream.flatten_pieces (chunks : ContentStream) :
    chunks.pieces.flatten = chunks.gather.1 := by
  induction chunks with
  | nil => rfl
  | cons chunk chunks ih =>
    cases chunk with
    | error e => rfl
    | ok chunk => exact congrArg (chunk ++ ·) ih

/-- A file is read from its beginning to its end. -/
theorem flatten_readPieces (content : Bytes) : (readPieces content).flatten = content := by
  fun_induction readPieces content with
  | case1 => rfl
  | case2 content h ih => rw [List.flatten_cons, ih, List.take_append_drop]

namespace Observer

/-- An observer is told the pieces one after the other. -/
theorem foldl_observe (o : Observer) (pieces : List Bytes) :
    pieces.foldl observe o = { o with calls := o.calls ++ pieces.map .observe } := by
  induction pieces generalizing o with
  | nil => rw [List.foldl_nil, List.map_nil, List.append_nil]
  | cons piece pieces ih =>
    rw [List.foldl_cons, ih]
    unfold observe
    rw [List.append_assoc]
    rfl

/-- A hasher takes in the pieces one after the other. -/
theorem DigestState.foldl_step (hasher : Hasher) (pieces : List Bytes) :
    (pieces.map ObserverCall.observe).foldl step (.open hasher) =
      .open { hasher with seen := hasher.seen ++ pieces.flatten } := by
  induction pieces generalizing hasher with
  | nil => rw [List.map_nil, List.foldl_nil, List.flatten_nil, List.append_nil]
  | cons piece pieces ih =>
    rw [List.map_cons, List.foldl_cons, List.flatten_cons, ← List.append_assoc]
    exact ih (hasher.update piece)

/-- However the content is cut into pieces, the digest observer gives the digest of all of it. -/
theorem key_digest (algorithm : DigestAlgorithm) (pieces : List Bytes) :
    (pieces.foldl observe (digest algorithm)).finish.key =
      some (algorithm.digest pieces.flatten) := by
  rw [foldl_observe]
  show DigestState.digest? (List.foldl DigestState.step (.open { algorithm })
    (pieces.map ObserverCall.observe ++ [.finish])) = _
  rw [List.foldl_append, DigestState.foldl_step]
  rfl

end Observer

namespace WriteRequest

/-- The request after its observer was told all pieces of the content. -/
def observed (r : WriteRequest) (pieces : List Bytes) : WriteRequest :=
  (pieces.foldl observe r).finish

/-- Only the observer is told. -/
theorem observed_eq (r : WriteRequest) (pieces : List Bytes) :
    r.observed pieces =
      { r with observer? := r.observer?.map fun o => (pieces.foldl Observer.observe o).finish } := by
  unfold observed
  induction pieces generalizing r with
  | nil => rfl
  | cons piece pieces ih =>
    rw [List.foldl_cons, ih]
    unfold observe
    rw [Option.map_map]
    rfl

@[simp] theorem key?_observed (r : WriteRequest) (pieces : List Bytes) :
    (r.observed pieces).key? = r.key? := by
  rw [observed_eq]

/-- The settled key with what is to be stored under it. -/
def keyed (r : WriteRequest) (content : Except IoError Bytes) :
    Except BlobError (String × Except IoError Bytes) :=
  match r.key with
  | some key => .ok (key, content)
  | none => .error .missingKey

/-- The key and the content of the local file that a request brings about. A directory in place of a
file is only noticed when its content is needed. -/
def plan (r : WriteRequest) (w : World) : Except BlobError (String × Except IoError Bytes) :=
  match r.source with
  | .stream chunks =>
    match chunks.gather with
    | (_, some e) => .error (.io e)
    | (content, none) => (r.observed chunks.pieces).keyed (.ok content)
  | .file path =>
    match w.read path, r.observer? with
    | .ok content, some _ => (r.observed (readPieces content)).keyed (.ok content)
    | .ok content, none => r.keyed (.ok content)
    | .error .isADirectory, none => r.keyed (.error .isADirectory)
    | .error e, _ => .error (.io e)

variable {r : WriteRequest} {w : World} {key : String} {content : Except IoError Bytes}

theorem settle_ok (h : r.keyed content = .ok (key, content)) (w : World) :
    r.settle w = .ok key w := by
  unfold keyed at h
  unfold settle
  cases hkey : r.key with
  | none =>
    rw [hkey] at h
    simp at h
  | some k =>
    rw [hkey] at h
    obtain rfl : k = key := congrArg Prod.fst (Except.ok.inj h)
    rfl

theorem settle_error {e : BlobError} (h : r.keyed content = .error e) (w : World) :
    r.settle w = .error e w := by
  unfold keyed at h
  unfold settle
  cases hkey : r.key with
  | none =>
    rw [hkey] at h
    obtain rfl : BlobError.missingKey = e := Except.error.inj h
    rfl
  | some k =>
    rw [hkey] at h
    simp at h

/-- A given key is settled on. -/
theorem keyed_given (h : r.key? = some key) (content : Except IoError Bytes) :
    r.keyed content = .ok (key, content) := by
  unfold keyed WriteRequest.key
  rw [h]
  rfl

/-- A digest observer derives the digest of the content, unless a key is given. -/
theorem keyed_observed {algorithm : DigestAlgorithm}
    (h : r.observer? = some (Observer.digest algorithm)) (pieces : List Bytes)
    (content : Except IoError Bytes) :
    (r.observed pieces).keyed content =
      .ok (r.key?.getD (algorithm.digest pieces.flatten), content) := by
  have hkey : (r.observed pieces).key =
      some (r.key?.getD (algorithm.digest pieces.flatten)) := by
    rw [observed_eq, h, Option.map_some]
    unfold key
    cases r.key? with
    | some key => rfl
    | none => exact Observer.key_digest algorithm pieces
  unfold keyed
  rw [hkey]

/-- The content that a request settles on is the one that it was asked to settle. -/
theorem snd_of_keyed {c : Except IoError Bytes} (h : r.keyed c = .ok (key, content)) :
    c = content := by
  unfold keyed at h
  split at h
  · exact congrArg Prod.snd (Except.ok.inj h)
  · simp at h

/-- Only a directory passes for a file without content. -/
theorem cause_of_plan {cause : IoError} (h : r.plan w = .ok (key, .error cause)) :
    cause = .isADirectory := by
  unfold plan at h
  split at h
  · split at h
    · exact absurd h nofun
    · exact absurd (snd_of_keyed h) nofun
  · split at h
    · exact absurd (snd_of_keyed h) nofun
    · exact absurd (snd_of_keyed h) nofun
    · exact (Except.error.inj (snd_of_keyed h)).symm
    · exact absurd h nofun

/-- What is appended piece by piece ends up behind what is there. -/
theorem append_eq {path : LocalPath} (h : w.Writable path) (chunks : ContentStream)
    (r : WriteRequest) (length : Nat) (held : Bytes) :
    append path r length chunks (w.place path held) =
      match chunks.gather with
      | (content, some e) => .error (.io e) (w.place path (held ++ content))
      | (content, none) => (do return (← (r.observed chunks.pieces).settle, length + content.length))
          (w.place path (held ++ content)) := by
  induction chunks generalizing r length held with
  | nil =>
    dsimp only [ContentStream.gather]
    rw [List.append_nil]
    rfl
  | cons chunk chunks ih =>
    cases chunk with
    | error e =>
      dsimp only [ContentStream.gather]
      rw [List.append_nil]
      rfl
    | ok chunk =>
      have hheld := fileContent_ok (World.read_place h held)
      have hput := putFile_ok (World.writable_place h held) (held ++ chunk)
      rw [World.place_place] at hput
      unfold append
      rw [run_bind_ok hheld, run_bind_ok hput, ih]
      rw [ContentStream.gather]
      cases ContentStream.gather chunks with
      | mk content failure? =>
        cases failure? with
        | some e =>
          dsimp only
          rw [List.append_assoc]
        | none =>
          dsimp only
          rw [List.append_assoc, List.length_append, Nat.add_assoc]
          rfl

/-- A stream ends up in the file, up to its first failure. -/
theorem transfer_eq (r : WriteRequest) (chunks : ContentStream) {path : LocalPath}
    (h : w.Writable path) :
    r.transfer chunks path w =
      match chunks.gather with
      | (content, some e) => .error (.io e) (w.place path content)
      | (content, none) => (do return (← (r.observed chunks.pieces).settle, content.length))
          (w.place path content) := by
  unfold transfer
  rw [run_bind_ok (putFile_ok h []), append_eq h]
  simp only [List.nil_append, Nat.zero_add]

theorem observeFile_ok (r : WriteRequest) {path : LocalPath} {content : Bytes}
    (h : w.read path = .ok content) :
    r.observeFile path w =
      (do return (← (r.observed (readPieces content)).settle, content.length)) w := by
  have hlength : ∀ (pieces : List Bytes) (n : Nat),
      pieces.foldl (fun n piece => n + piece.length) n = n + pieces.flatten.length := by
    intro pieces
    induction pieces with
    | nil => exact fun _ => rfl
    | cons piece pieces ih =>
      intro n
      rw [List.foldl_cons, ih, List.flatten_cons, List.length_append, Nat.add_assoc]
  unfold observeFile
  rw [run_bind_ok (fileContent_ok h), hlength, flatten_readPieces, Nat.zero_add]
  rfl

/-- What inspecting a local file comes to. The size of a directory can be asked for. -/
theorem inspect_eq (r : WriteRequest) (path : LocalPath) (w : World) :
    r.inspect path w =
      match w.read path, r.observer? with
      | .ok content, some _ =>
        (do return (← (r.observed (readPieces content)).settle, content.length)) w
      | .ok content, none => (do return (← r.settle, content.length)) w
      | .error .isADirectory, none => (do return (← r.settle, directorySize)) w
      | .error e, _ => .error (.io e) w := by
  unfold inspect
  cases hobserver : r.observer? with
  | some o =>
    rw [if_pos (show (some o).isSome = true from rfl)]
    cases hread : w.read path with
    | ok content => exact r.observeFile_ok hread
    | error e =>
      refine (run_bind_error (fileContent_error hread) _).trans ?_
      cases e <;> rfl
  | none =>
    rw [if_neg (show ¬ (none : Option Observer).isSome = true from nofun)]
    cases hread : w.read path with
    | ok content => exact run_bind_ok (fileSize_ok hread) _
    | error e =>
      by_cases hdir : e = .isADirectory
      · subst hdir
        exact run_bind_ok (fileSize_directory hread) _
      · refine (run_bind_error (fileSize_error hread hdir) _).trans ?_
        cases e <;> first | rfl | exact absurd rfl hdir

/-- Runs an action with the content in a local file and the settled key, in the scope of that file if
it is a temporary one. -/
def withLocal {α : Type} (r : WriteRequest) (dir : TempDir) (use : LocalContent → Action α) :
    Action α :=
  match r.source with
  | .stream chunks =>
    withTemp dir fun path => do
      let (key, length) ← r.transfer chunks path
      use ⟨key, path, length, true⟩
  | .file path => do
    let (key, length) ← r.inspect path
    use ⟨key, path, length, false⟩

/-- Localized content that goes with the last action stays for that action. -/
theorem localize_bind_close {α : Type} (r : WriteRequest) (dir : TempDir)
    (use : LocalContent → Action α) :
    (r.localize dir >>= fun content => content.close (use content)) = r.withLocal dir use := by
  unfold localize withLocal
  cases r.source with
  | file path => simp only [bind_assoc, pure_bind]; rfl
  | stream chunks =>
    unfold withTemp TempGuard.create
    simp only [bind_assoc, pure_bind]
    refine bind_congr fun serial => ?_
    exact TempGuard.hold_bind_close { path := .temp dir serial } (r.transfer chunks _) fun x =>
      use ⟨x.1, .temp dir serial, x.2, true⟩

theorem withLocal_map {α β : Type} (r : WriteRequest) (dir : TempDir)
    (use : LocalContent → Action α) (f : α → β) :
    (r.withLocal dir fun content => do return f (← use content)) = do
      return f (← r.withLocal dir use) := by
  unfold withLocal
  cases r.source with
  | file path => simp only [bind_assoc]
  | stream chunks =>
    dsimp only
    rw [← withTemp_map]
    simp only [bind_assoc]

section

variable {α : Type} {dir : TempDir} {use : LocalContent → Action α} {files : TempFiles}
  {Q : α → World → Prop} {E : BlobError → World → Prop}

theorem withLocal_stream_spec {chunks : ContentStream} (hsource : r.source = .stream chunks)
    (hdir : w.temps? dir = some files) (herror : ∀ e, r.plan w = .error e → E e w)
    (huse : ∀ key content serial, r.plan w = .ok (key, .ok content) → files[serial]? = none →
      Ensures (use ⟨key, .temp dir serial, content.length, true⟩) (w.putTemp dir serial content)
        (fun a v => Q a (v.dropTemp dir serial)) fun e v => E e (v.dropTemp dir serial)) :
    Ensures (r.withLocal dir use) w Q E := by
  unfold withLocal
  rw [hsource]
  dsimp only
  refine withTemp_spec hdir fun serial hfree => ?_
  have hwritable := World.writable_putTemp hdir serial []
  have htransfer := r.transfer_eq chunks hwritable
  unfold plan at herror huse
  rw [hsource] at herror huse
  dsimp only at herror huse
  cases hgather : ContentStream.gather chunks with
  | mk content failure? =>
    rw [hgather] at htransfer herror huse
    have hplace : (w.putTemp dir serial []).place (.temp dir serial) content =
        w.putTemp dir serial content := World.putTemp_putTemp [] content
    have hdrop := World.dropTemp_putTemp hdir hfree content
    cases failure? with
    | some e =>
      refine Ensures.bind_error htransfer ?_
      rw [hplace, hdrop]
      exact herror _ rfl
    | none =>
      dsimp only at htransfer
      rw [hplace] at htransfer
      cases hkeyed : (r.observed chunks.pieces).keyed (.ok content) with
      | error e =>
        refine Ensures.bind_error (htransfer.trans (run_bind_error (settle_error hkeyed _) _)) ?_
        rw [hdrop]
        exact herror e hkeyed
      | ok planned =>
        obtain ⟨key, c⟩ := planned
        obtain rfl := snd_of_keyed hkeyed
        exact Ensures.bind_ok (htransfer.trans (run_bind_ok (settle_ok hkeyed _) _))
          (huse key content serial hkeyed hfree)

theorem withLocal_file_spec {path : LocalPath} (hsource : r.source = .file path)
    (herror : ∀ e, r.plan w = .error e → E e w)
    (huse : ∀ key content length, r.plan w = .ok (key, content) → w.read path = content →
      Ensures (use ⟨key, path, length, false⟩) w Q E) :
    Ensures (r.withLocal dir use) w Q E := by
  unfold withLocal
  rw [hsource]
  dsimp only
  unfold plan at herror huse
  rw [hsource] at herror huse
  dsimp only at herror huse
  have hkeep : ∀ (q : WriteRequest) (content : Except IoError Bytes) (length : Nat),
      r.inspect path w = (do return (← q.settle, length)) w →
      (∀ e, q.keyed content = .error e → E e w) →
      (∀ key c length, q.keyed content = .ok (key, c) → content = c →
        Ensures (use ⟨key, path, length, false⟩) w Q E) →
      Ensures (r.inspect path >>= fun x => use ⟨x.1, path, x.2, false⟩) w Q E := by
    intro q content length hrun herror huse
    cases hkeyed : q.keyed content with
    | error e =>
      exact Ensures.bind_error (hrun.trans (run_bind_error (settle_error hkeyed w) _))
        (herror e hkeyed)
    | ok planned =>
      obtain ⟨key, c⟩ := planned
      obtain rfl := snd_of_keyed hkeyed
      exact Ensures.bind_ok (hrun.trans (run_bind_ok (settle_ok hkeyed w) _))
        (huse key content length hkeyed rfl)
  have hrun := r.inspect_eq path w
  cases hread : w.read path with
  | ok content =>
    cases hobserver : r.observer? with
    | some o =>
      rw [hread, hobserver] at herror huse hrun
      exact hkeep _ _ _ hrun herror huse
    | none =>
      rw [hread, hobserver] at herror huse hrun
      exact hkeep _ _ _ hrun herror huse
  | error e =>
    cases hobserver : r.observer? with
    | some o =>
      rw [hread, hobserver] at herror hrun
      refine Ensures.bind_error (hrun.trans ?_) (herror (.io e) ?_)
      · cases e <;> rfl
      · cases e <;> rfl
    | none =>
      rw [hread, hobserver] at herror huse hrun
      by_cases hdir : e = .isADirectory
      · subst hdir
        exact hkeep _ _ _ hrun herror huse
      · refine Ensures.bind_error (hrun.trans ?_) (herror (.io e) ?_)
        · cases e <;> first | rfl | exact absurd rfl hdir
        · cases e <;> first | rfl | exact absurd rfl hdir

end

end WriteRequest

end BlobVault
