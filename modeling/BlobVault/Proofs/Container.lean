import BlobVault.Container
import BlobVault.Proofs.Outcome

/-!
# Requests to a container

What each request does to the objects, and how it can fail. A request changes the faults of a
container only by counting, so a container without faults stays without (`Follows`). A request that
a fault strikes (`Struck`) leaves the objects as they are, or has been carried out (`Left`).

A fault is honest if its error is true: the request was not carried out, and the error does not
pretend to say that an object is absent or present. Then a failure changes nothing, and an answer
about presence comes from the objects.
-/

namespace BlobVault

open Std (ExtTreeMap)

/-- The requests whose answer can be that an object is absent. -/
def RequestKind.tellsAbsence (kind : RequestKind) : Prop :=
  kind = .head ∨ kind = .get ∨ kind = .copy

/-- The requests whose answer can be that an object is there already. -/
def RequestKind.tellsPresence (kind : RequestKind) : Prop := kind = .put ∨ kind = .copy

/-- The error of the fault is true: what it strikes is not carried out, and it does not pretend to
tell whether an object is there. -/
structure Fault.Honest (f : Fault) : Prop where
  effectless : f.carriedOut = false
  absence : f.kind.tellsAbsence → f.error ≠ .notFound
  presence : f.kind.tellsPresence → f.error ≠ .alreadyExists

/-- The second of the faults is the first one, perhaps counted down. -/
structure Fault.Counted (f g : Fault) : Prop where
  kind : g.kind = f.kind
  error : g.error = f.error
  carriedOut : g.carriedOut = f.carriedOut

namespace Fault.Counted

variable {f g h : Fault}

theorem refl (f : Fault) : f.Counted f := ⟨rfl, rfl, rfl⟩

theorem trans (hfg : f.Counted g) (hgh : g.Counted h) : f.Counted h :=
  ⟨hgh.kind.trans hfg.kind, hgh.error.trans hfg.error, hgh.carriedOut.trans hfg.carriedOut⟩

theorem honest (hfg : f.Counted g) (hf : f.Honest) : g.Honest := by
  refine ⟨hfg.carriedOut.trans hf.effectless, ?_, ?_⟩
  · rw [hfg.kind, hfg.error]
    exact hf.absence
  · rw [hfg.kind, hfg.error]
    exact hf.presence

end Fault.Counted

/-- Striking only counts faults down. -/
theorem Fault.mem_strike {kind : RequestKind} {path : String} {faults : List Fault} {g : Fault}
    (h : g ∈ (strike kind path faults).2) : ∃ f ∈ faults, f.Counted g := by
  induction faults with
  | nil => exact absurd h List.not_mem_nil
  | cons f fs ih =>
    have hpass : ∀ f', f.Counted f' → g ∈ f' :: (strike kind path fs).2 →
        ∃ f'' ∈ f :: fs, f''.Counted g := by
      intro f' hf' hg
      rcases List.mem_cons.1 hg with rfl | hg
      · exact ⟨f, List.mem_cons_self, hf'⟩
      · obtain ⟨f'', hf'', hcounted⟩ := ih hg
        exact ⟨f'', List.mem_cons_of_mem _ hf'', hcounted⟩
    unfold strike at h
    dsimp only at h
    split at h
    · exact hpass f (.refl f) h
    · split at h
      · refine hpass _ ?_ h
        exact ⟨rfl, rfl, rfl⟩
      · exact hpass f (.refl f) h
      · rcases List.mem_cons.1 h with rfl | hg
        · exact ⟨f, List.mem_cons_self, rfl, rfl, rfl⟩
        · exact ⟨g, List.mem_cons_of_mem _ hg, .refl g⟩
      · exact ⟨g, h, .refl g⟩

/-- The fault that strikes is one of the given ones and meant for the request. -/
theorem Fault.strike_some {kind : RequestKind} {path : String} {faults : List Fault} {g : Fault}
    (h : (strike kind path faults).1 = some g) : g ∈ faults ∧ g.kind = kind := by
  induction faults with
  | nil => simp [strike] at h
  | cons f fs ih =>
    have hpass : (strike kind path fs).1 = some g → g ∈ f :: fs ∧ g.kind = kind := fun hg =>
      ⟨List.mem_cons_of_mem _ (ih hg).1, (ih hg).2⟩
    have hhit : f.concerns kind path = true → some f = some g → g ∈ f :: fs ∧ g.kind = kind := by
      intro hc hfg
      obtain rfl := Option.some.inj hfg
      unfold concerns at hc
      rw [Bool.and_eq_true, beq_iff_eq] at hc
      exact ⟨List.mem_cons_self, hc.1⟩
    unfold strike at h
    dsimp only at h
    split at h
    · exact hpass h
    · rename_i hconcerns
      rw [Bool.not_eq_true', Bool.not_eq_false] at hconcerns
      split at h
      · exact hpass h
      · exact hpass h
      · exact hhit hconcerns h
      · exact hhit hconcerns h

namespace Container

/-- No fault stands in front of the container. -/
def Quiet (c : Container) : Prop := c.faults = []

/-- All faults in front of the container are honest. -/
def Honest (c : Container) : Prop := ∀ f ∈ c.faults, f.Honest

/-- No fault in front of the container carries out what it strikes. -/
def Effectless (c : Container) : Prop := ∀ f ∈ c.faults, f.carriedOut = false

theorem Honest.effectless {c : Container} (h : c.Honest) : c.Effectless :=
  fun f hf => (h f hf).effectless

theorem Quiet.honest {c : Container} (h : c.Quiet) : c.Honest := by
  intro f hf
  rw [show c.faults = [] from h] at hf
  exact absurd hf List.not_mem_nil

/-- The faults of a container are those of an earlier state, some of them counted down. -/
structure Follows (c d : Container) : Prop where
  faults : ∀ g ∈ d.faults, ∃ f ∈ c.faults, f.Counted g

namespace Follows

variable {c d e : Container}

theorem of_faults_eq (h : d.faults = c.faults) : c.Follows d :=
  ⟨fun g hg => ⟨g, h ▸ hg, .refl g⟩⟩

theorem refl (c : Container) : c.Follows c := of_faults_eq rfl

theorem trans (h : c.Follows d) (h' : d.Follows e) : c.Follows e := by
  refine ⟨fun g hg => ?_⟩
  obtain ⟨f, hf, hcounted⟩ := h'.faults g hg
  obtain ⟨f', hf', hcounted'⟩ := h.faults f hf
  exact ⟨f', hf', hcounted'.trans hcounted⟩

theorem honest (h : c.Follows d) (hc : c.Honest) : d.Honest := by
  intro g hg
  obtain ⟨f, hf, hcounted⟩ := h.faults g hg
  exact hcounted.honest (hc f hf)

theorem effectless (h : c.Follows d) (hc : c.Effectless) : d.Effectless := by
  intro g hg
  obtain ⟨f, hf, hcounted⟩ := h.faults g hg
  exact hcounted.carriedOut.trans (hc f hf)

theorem quiet (h : c.Follows d) (hc : c.Quiet) : d.Quiet := by
  refine List.eq_nil_iff_forall_not_mem.2 fun g hg => ?_
  obtain ⟨f, hf, -⟩ := h.faults g hg
  rw [show c.faults = [] from hc] at hf
  exact List.not_mem_nil hf

end Follows

/-- An error of a request that a fault struck. -/
def Struck (c : Container) (kind : RequestKind) (path : String) (e : ContainerError) : Prop :=
  ∃ f ∈ c.faults, f.kind = kind ∧ e = f.error.at path

namespace Struck

variable {c d : Container} {kind : RequestKind} {path : String} {e : ContainerError}

theorem not_quiet (h : c.Struck kind path e) : ¬ c.Quiet := by
  intro hc
  obtain ⟨f, hf, -⟩ := h
  rw [show c.faults = [] from hc] at hf
  exact List.not_mem_nil hf

theorem ne_notFound (h : c.Struck kind path e) (hc : c.Honest) (hk : kind.tellsAbsence)
    (text : String) : e ≠ .notFound text := by
  obtain ⟨f, hf, rfl, rfl⟩ := h
  have hne := (hc f hf).absence hk
  cases herror : f.error <;> simp_all [FaultError.at]

theorem ne_alreadyExists (h : c.Struck kind path e) (hc : c.Honest) (hk : kind.tellsPresence)
    (text : String) : e ≠ .alreadyExists text := by
  obtain ⟨f, hf, rfl, rfl⟩ := h
  have hne := (hc f hf).presence hk
  cases herror : f.error <;> simp_all [FaultError.at]

theorem of_follows (h : d.Struck kind path e) (hcd : c.Follows d) : c.Struck kind path e := by
  obtain ⟨g, hg, hkind, he⟩ := h
  obtain ⟨f, hf, hcounted⟩ := hcd.faults g hg
  exact ⟨f, hf, hcounted.kind ▸ hkind, hcounted.error ▸ he⟩

end Struck

/-! ## Requests -/

variable (c : Container) (p : ObjectPath)

/-- A request that only looks: its answer fits the objects, which stay. -/
def Looks (c d : Container) : Prop := c.Follows d ∧ d.objects = c.objects

theorem Looks.find? {c d : Container} (h : c.Looks d) (p : ObjectPath) : d.find? p = c.find? p := by
  unfold Container.find?
  rw [h.2]

theorem Looks.trans {c d e : Container} (h : c.Looks d) (h' : d.Looks e) : c.Looks e :=
  ⟨h.1.trans h'.1, h'.2.trans h.2⟩

theorem looks_strike (kind : RequestKind) (path : String) : c.Looks (c.strike kind path).2 :=
  ⟨⟨fun _ hg => Fault.mem_strike hg⟩, rfl⟩

/-- How a request that fails leaves a container: as it was or, where faults carry out what they
strike, as it was to become. -/
def Left (c d : Container) (P : Container → Prop) : Prop :=
  c.Looks d ∨ (c.Follows d ∧ ¬ c.Effectless ∧ P d)

namespace Left

variable {c d : Container} {P R : Container → Prop}

theorem looks (h : c.Left d P) (hc : c.Effectless) : c.Looks d :=
  h.resolve_right fun h => h.2.1 hc

theorem follows (h : c.Left d P) : c.Follows d := h.elim (·.1) (·.1)

end Left

/-- A request reaches the objects unless a fault strikes it. -/
theorem reach_spec (kind : RequestKind) (path : String) :
    Ensures (reach kind path) c (fun _ d => c.Looks d)
      fun e d => c.Looks d ∧ c.Struck kind path e := by
  have hlooks := c.looks_strike kind path
  unfold Ensures reach
  cases h : c.strike kind path with
  | mk hit d =>
    rw [h] at hlooks
    cases hit with
    | none => exact hlooks
    | some f =>
      have hf : (Fault.strike kind path c.faults).1 = some f := congrArg Prod.fst h
      exact ⟨hlooks, f, (Fault.strike_some hf).1, (Fault.strike_some hf).2, rfl⟩

/-- A request that a fault strikes fails, and may have been carried out all the same. -/
theorem perform_spec {kind : RequestKind} {path : String} {x : Call Unit} {P : Container → Prop}
    {E : ContainerError → Prop}
    (h : ∀ d, c.Looks d → Ensures x d (fun _ e => c.Follows e ∧ P e) fun e u => c.Looks u ∧ E e) :
    Ensures (perform kind path x) c (fun _ d => c.Follows d ∧ P d)
      fun e d => c.Left d P ∧ (E e ∨ c.Struck kind path e) := by
  have hlooks := c.looks_strike kind path
  unfold Ensures perform
  cases hstrike : c.strike kind path with
  | mk hit d =>
    rw [hstrike] at hlooks
    have hx := h d hlooks
    cases hit with
    | none =>
      exact hx.mono (fun _ _ h => h) fun _ _ h => ⟨.inl h.1, .inl h.2⟩
    | some f =>
      have hf : (Fault.strike kind path c.faults).1 = some f := congrArg Prod.fst hstrike
      obtain ⟨hmem, hkind⟩ := Fault.strike_some hf
      refine ⟨?_, .inr ⟨f, hmem, hkind, rfl⟩⟩
      by_cases hcarried : f.carriedOut = true
      · rw [if_pos hcarried]
        unfold leave
        cases hrun : x d with
        | ok _ e =>
          obtain ⟨hfollows, hP⟩ := hx.ok_of_eq hrun
          refine .inr ⟨hfollows, fun heffectless => ?_, hP⟩
          rw [heffectless f hmem] at hcarried
          exact Bool.noConfusion hcarried
        | error _ e => exact .inl (hx.error_of_eq hrun).1
      · rw [if_neg hcarried]
        exact .inl hlooks

theorem strike?_spec (kind : RequestKind) (path : String) :
    Ensures (strike? kind path) c
      (fun hit d => c.Looks d ∧
        ∀ f, hit = some f → c.Struck kind path (f.error.at path) ∧ f ∈ c.faults)
      NoError := by
  refine ⟨c.looks_strike kind path, fun f hf => ?_⟩
  obtain ⟨hmem, hkind⟩ := Fault.strike_some hf
  exact ⟨⟨f, hmem, hkind, rfl⟩, hmem⟩

theorem head_spec :
    Ensures (head p) c (fun n d => c.Looks d ∧ (c.find? p).map List.length = some n)
      fun e d => c.Looks d ∧ ((c.find? p = none ∧ e = .notFound p.text) ∨
        c.Struck .head p.text e) := by
  unfold head
  refine Ensures.bind ((c.reach_spec .head p.text).mono (fun _ _ h => h)
    fun e d h => ⟨h.1, .inr h.2⟩) fun _ d hd => ?_
  refine Ensures.bind (Ensures.get (S := fun a b => a = d ∧ b = d) ⟨rfl, rfl⟩) ?_
  rintro _ _ ⟨rfl, rfl⟩
  have hfind := hd.find? p
  split
  · rename_i content h
    refine Ensures.pure ⟨hd, ?_⟩
    rw [← hfind, h]
    rfl
  · rename_i h
    exact Ensures.throw ⟨hd, .inl ⟨hfind ▸ h, rfl⟩⟩

/-- The part of a content that a request asks for. -/
def part (range? : Option ByteRange) (content : Bytes) : Bytes :=
  match range? with
  | some r => r.window content
  | none => content

/-- A delivery without a failure is all that was asked for. -/
theorem fetch_spec (range? : Option ByteRange) :
    Ensures (fetch p range?) c
      (fun delivery d => c.Looks d ∧ ∃ content, c.find? p = some content ∧
        ((delivery.failure? = none ∧ delivery.bytes = part range? content) ∨
          (delivery.failure? ≠ none ∧ ¬ c.Quiet)))
      fun e d => c.Looks d ∧ ((c.find? p = none ∧ e = .notFound p.text) ∨
        c.Struck .get p.text e) := by
  unfold fetch
  refine Ensures.bind ((c.reach_spec .get p.text).mono (fun _ _ h => h)
    fun e d h => ⟨h.1, .inr h.2⟩) fun _ d hd => ?_
  refine Ensures.bind (Ensures.get (S := fun a b => a = d ∧ b = d) ⟨rfl, rfl⟩) ?_
  rintro _ _ ⟨rfl, rfl⟩
  rename_i d
  have hfind := hd.find? p
  split
  · rename_i h
    exact Ensures.throw ⟨hd, .inl ⟨hfind ▸ h, rfl⟩⟩
  · rename_i content h
    refine Ensures.bind ((d.strike?_spec .body p.text).mono (fun _ _ h => h)
      fun _ _ h => h.elim) fun hit e he => ?_
    cases hit with
    | some f =>
      have hstruck := (he.2 f rfl).1.of_follows hd.1
      exact Ensures.pure ⟨hd.trans he.1, content, hfind ▸ h, .inr ⟨nofun, hstruck.not_quiet⟩⟩
    | none => exact Ensures.pure ⟨hd.trans he.1, content, hfind ▸ h, .inl ⟨rfl, rfl⟩⟩

theorem create_spec (content : Bytes) :
    Ensures (create p content) c
      (fun _ d => c.Follows d ∧ c.find? p = none ∧ d.objects = c.objects.insert p.text content)
      fun e d =>
        c.Left d (fun d => c.find? p = none ∧ d.objects = c.objects.insert p.text content) ∧
          (((c.find? p).isSome ∧ e = .alreadyExists p.text) ∨ c.Struck .put p.text e) := by
  refine c.perform_spec fun d hd => ?_
  refine Ensures.bind (Ensures.get (S := fun a b => a = d ∧ b = d) ⟨rfl, rfl⟩) ?_
  rintro _ _ ⟨rfl, rfl⟩
  rename_i d
  have hfind := hd.find? p
  split
  · rename_i h
    exact Ensures.throw ⟨hd, hfind ▸ h, rfl⟩
  · rename_i h
    refine Ensures.modify ⟨hd.1.trans (Follows.of_faults_eq rfl), ?_, ?_⟩
    · rw [← hfind]
      simpa using h
    · show d.objects.insert _ _ = _
      rw [hd.2]

theorem delete_spec :
    Ensures (delete p) c (fun _ d => c.Follows d ∧ d.objects = c.objects.erase p.text)
      fun e d => c.Left d (fun d => d.objects = c.objects.erase p.text) ∧
        c.Struck .delete p.text e := by
  refine (c.perform_spec (E := fun _ => False) fun d hd => ?_).mono (fun _ _ h => h)
    fun _ _ h => ⟨h.1, h.2.resolve_left id⟩
  refine Ensures.modify ⟨hd.1.trans (Follows.of_faults_eq rfl), ?_⟩
  show d.objects.erase _ = _
  rw [hd.2]

theorem copyToFree_spec (source target : ObjectPath) :
    Ensures (copyToFree source target) c
      (fun _ d => c.Follows d ∧ c.find? target = none ∧ ∃ content, c.find? source = some content ∧
        d.objects = c.objects.insert target.text content)
      fun e d =>
        c.Left d (fun d => c.find? target = none ∧ ∃ content, c.find? source = some content ∧
          d.objects = c.objects.insert target.text content) ∧
        ((c.find? source = none ∧ e = .notFound source.text) ∨
          ((c.find? source).isSome ∧ (c.find? target).isSome ∧ e = .alreadyExists target.text) ∨
          c.Struck .copy target.text e) := by
  refine (c.perform_spec (E := fun e => (c.find? source = none ∧ e = .notFound source.text) ∨
    ((c.find? source).isSome ∧ (c.find? target).isSome ∧ e = .alreadyExists target.text))
    fun d hd => ?_).mono (fun _ _ h => h) fun _ _ h => ⟨h.1, or_assoc.1 h.2⟩
  refine Ensures.bind (Ensures.get (S := fun a b => a = d ∧ b = d) ⟨rfl, rfl⟩) ?_
  rintro _ _ ⟨rfl, rfl⟩
  rename_i d
  have hsource := hd.find? source
  have htarget := hd.find? target
  split
  · rename_i h
    exact Ensures.throw ⟨hd, .inl ⟨hsource ▸ h, rfl⟩⟩
  · rename_i content h
    rw [hsource] at h
    split
    · rename_i ht
      exact Ensures.throw ⟨hd, .inr ⟨by rw [h]; rfl, htarget ▸ ht, rfl⟩⟩
    · rename_i ht
      refine Ensures.set ⟨hd.1.trans (Follows.of_faults_eq rfl), ?_, content, h, ?_⟩
      · rw [← htarget]
        simpa using ht
      · show d.objects.insert _ _ = _
        rw [hd.2]

/-! ## Uploads in parts -/

theorem sendParts_spec (n : Nat) :
    Ensures (sendParts p n) c (fun _ d => c.Looks d)
      fun e d => c.Looks d ∧ c.Struck .part p.text e := by
  induction n generalizing c with
  | zero => exact Ensures.pure ⟨Follows.refl c, rfl⟩
  | succ n ih =>
    refine Ensures.bind (c.reach_spec .part p.text) fun _ d hd => ?_
    exact (ih d).mono (fun _ _ h => hd.trans h)
      fun _ _ h => ⟨hd.trans h.1, h.2.of_follows hd.1⟩

/-- An upload that goes through has put the content there; one that fails was struck by a fault. -/
theorem finishUpload_spec (content : Bytes) :
    Ensures (finishUpload p content) c
      (fun _ d => c.Follows d ∧ d.objects = c.objects.insert p.text content)
      fun _ d => c.Left d (fun d => d.objects = c.objects.insert p.text content) ∧ ¬ c.Quiet := by
  unfold finishUpload
  refine Ensures.bind ((c.sendParts_spec p _).mono (fun _ _ h => h)
    fun e d h => ⟨.inl h.1, h.2.not_quiet⟩) fun _ d hd => ?_
  refine Ensures.bind ((d.strike?_spec .complete p.text).mono (fun _ _ h => h)
    fun _ _ h => h.elim) fun hit e he => ?_
  have hce := hd.trans he.1
  have hinsert : c.Follows (e.insert p content) ∧
      (e.insert p content).objects = c.objects.insert p.text content := by
    refine ⟨hce.1.trans (Follows.of_faults_eq rfl), ?_⟩
    show e.objects.insert _ _ = _
    rw [hce.2]
  cases hit with
  | none => exact Ensures.modify hinsert
  | some f =>
    obtain ⟨hstruck, hmem⟩ := he.2 f rfl
    have hquiet := (hstruck.of_follows hd.1).not_quiet
    -- giving the upload up only looks, whatever the fault has made of the objects before
    have hgive : ∀ u, c.Left u (fun d => d.objects = c.objects.insert p.text content) →
        Ensures (do abortUpload p; throw (f.error.at p.text) : Call Unit) u
          (fun _ d => c.Follows d ∧ d.objects = c.objects.insert p.text content)
          fun _ d => c.Left d (fun d => d.objects = c.objects.insert p.text content) ∧
            ¬ c.Quiet := by
      intro u hu
      have hleft : ∀ v, u.Looks v →
          c.Left v fun d => d.objects = c.objects.insert p.text content := fun v hv =>
        hu.imp (·.trans hv) fun h => ⟨h.1.trans hv.1, h.2.1, hv.2.trans h.2.2⟩
      refine Ensures.bind ((u.reach_spec .abort p.text).mono (fun _ _ h => h)
        fun _ v h => ⟨hleft v h.1, hquiet⟩) fun _ v hv => ?_
      exact Ensures.throw ⟨hleft v hv, hquiet⟩
    dsimp only
    split
    · rename_i hcarried
      refine Ensures.bind (Ensures.modify (S := fun _ u => u = e.insert p content) rfl) ?_
      rintro _ _ rfl
      refine hgive _ (.inr ⟨hinsert.1, fun heffectless => ?_, hinsert.2⟩)
      rw [hd.1.effectless heffectless f hmem] at hcarried
      exact Bool.noConfusion hcarried
    · exact hgive e (.inl hce)

/-! ## Listings -/

/-- A listing shows the visible objects in order, all of them unless a fault strikes it. -/
theorem list_spec (top? : Option ObjectPath) :
    c.Looks (c.list top?).2 ∧
      (((c.list top?).1.2 = none ∧ (c.list top?).1.1 = c.below top?) ∨
        ((c.list top?).1.2.isSome ∧ ¬ c.Quiet ∧
          ∃ n, (c.list top?).1.1 = (c.below top?).take n)) := by
  have hlooks := c.looks_strike .list ((top?.map ObjectPath.text).getD "")
  unfold list
  dsimp only
  cases h : c.strike .list ((top?.map ObjectPath.text).getD "") with
  | mk hit d =>
    rw [h] at hlooks
    have hbelow : d.below top? = c.below top? := by
      unfold below visible
      rw [hlooks.2]
    cases hit with
    | none => exact ⟨hlooks, .inl ⟨rfl, hbelow⟩⟩
    | some f =>
      have hf : (Fault.strike .list _ c.faults).1 = some f := congrArg Prod.fst h
      refine ⟨hlooks, .inr ⟨rfl, ?_, f.after, congrArg (List.take f.after) hbelow⟩⟩
      intro hquiet
      have hmem := (Fault.strike_some hf).1
      rw [show c.faults = [] from hquiet] at hmem
      exact List.not_mem_nil hmem

end Container

end BlobVault
