import BlobVault.Signing
import BlobVault.Proofs.Namespace

/-!
# What a configuration depends on

The reader looks at seventeen properties, and at each through its trimmed text only, where a blank
one counts as absent. What it does not need it does not look at: the properties of the cache while
the cache is off, the environment while the properties hold the key of the account, and the name in
the properties while they do not. So two readings that agree on the rest have the same outcome, be
it a configuration or an error, and the account is never put together from both sources.

1. `Config.uncachedOf`, `Config.ofProperties_eq`: the cache is read behind all the rest.
2. `Config.SameInputs`, `Config.ofProperties_congr`: when two readings have the same outcome.
3. `Config.account_of_ofProperties`: where the account of a configuration comes from.
4. `Config.root_of_ofProperties`, `Namespace.ofText_of_closed`: the beginning of all paths is
   closed, so a store takes it as it is.
5. `Config.ofProperties_determined`: all of it.
-/

namespace BlobVault

open Std (ExtTreeMap)

namespace Namespace

/-- A beginning that is closed is left as it is. -/
theorem ofText_of_closed {n : Namespace} (h : n.Closed) : ofText n.root = n := by
  unfold ofText normalize
  split
  · rfl
  · rename_i c hlast
    rcases h with h | ⟨front, h⟩
    · rw [h] at hlast
      cases hlast
    · rw [h, List.getLast?_concat, Option.some_inj] at hlast
      rw [if_pos hlast.symm]

end Namespace

/-! ## Steps of the reader -/

theorem ok_of_bind {α β : Type} {x : Except BlobError α} {f : α → Except BlobError β} {b : β}
    (h : x >>= f = .ok b) : ∃ a, x = .ok a ∧ f a = .ok b := by
  cases x with
  | error e => cases h
  | ok a => exact ⟨a, rfl, h⟩

theorem demand_eq_ok_iff {value? : Option String} {property value : String}
    {fallback? : Option String} :
    demand value? property fallback? = .ok value ↔ value? = some value := by
  unfold demand
  cases value? with
  | none => exact ⟨nofun, nofun⟩
  | some v => rw [Except.ok.injEq, Option.some_inj]

namespace Config

variable {p q : Properties} {env env' : String → Option String} {c : Config}

/-! ## The cache apart from the rest -/

/-- The configuration that properties and environment describe, but for its cache. -/
def uncachedOf (p : Properties) (env : String → Option String) : Except BlobError Config := do
  let (name?, key?) := account p env
  let accountName ← demand name? "account.name" (some accountVariable)
  let accountKey ← demand key? "account.key" (some accountKeyVariable)
  let container ← demand (p.value? "container") "container" none
  let expire ← numberOr p "directdownload.expire" 3600
  let digest ← match p.value? "digest" with
    | some v => DigestAlgorithm.ofName v
    | none => .ok .md5
  return {
    accountName, accountKey, container
    endpointProtocol := (p.value? "endpointProtocol").getD "https"
    endpoint? := p.value? "endpoint"
    root := rootOf p
    cdnHost? := p.value? "cdn.host"
    allowsRange := readFlag (p.value? "allowByteRange")
    directDownload := readFlag (p.value? "directdownload")
    directDownloadExpire := expire
    digest, caching? := none }

/-- The properties that are read for it. -/
def uncachedProperties : List String :=
  ["account.key", "account.name", "container", "endpointProtocol", "endpoint", "cdn.host", "prefix",
    "namespace", "allowByteRange", "directdownload", "directdownload.expire", "digest"]

/-- The cache is read last, and put into what was read before. -/
theorem ofProperties_eq (p : Properties) (env : String → Option String) :
    ofProperties p env = do
      let c ← uncachedOf p env
      let caching? ← cachingOf p
      return { c with caching? } := by
  unfold ofProperties uncachedOf
  cases p.value? "digest" <;> simp only [bind_assoc, pure_bind]

/-! ## Readings with the same outcome -/

/-- The properties of the account. -/
def accountProperties : List String := ["account.key", "account.name"]

/-- The environment variables of the account. -/
def accountVariables : List String := [accountVariable, accountKeyVariable]

/-- The properties of the cache. -/
def cacheProperties : List String := ["cachedir", cacheSizeProperty, "cachecount", "cacheminage"]

/-- The properties that a provider knows. -/
def knownProperties : List String := uncachedProperties ++ "nocache" :: cacheProperties

/-- Two readings that agree on what counts: on the properties of the cache only while it is on, on
the name of the account only where its key is in the properties, and on the environment only where
it is not. -/
structure SameInputs (p q : Properties) (env env' : String → Option String) : Prop where
  settings : ∀ name ∈ knownProperties, name ≠ "account.name" → name ∉ cacheProperties →
    p.value? name = q.value? name
  cache : readFlag (p.value? "nocache") = false →
    ∀ name ∈ cacheProperties, p.value? name = q.value? name
  name : p.value? "account.key" ≠ none → p.value? "account.name" = q.value? "account.name"
  environment : p.value? "account.key" = none →
    ∀ name ∈ accountVariables, env name = env' name

/-- The name of the account is read only if the properties hold its key, and the environment only
if they do not. -/
theorem account_congr (hkey : p.value? "account.key" = q.value? "account.key")
    (hname : p.value? "account.key" ≠ none → p.value? "account.name" = q.value? "account.name")
    (henv : p.value? "account.key" = none →
      ∀ name ∈ accountVariables, env name = env' name) :
    account p env = account q env' := by
  unfold account
  rw [← hkey]
  cases h : p.value? "account.key" with
  | some key => rw [hname (by rw [h]; exact Option.some_ne_none key)]
  | none => rw [henv h accountVariable (by decide), henv h accountKeyVariable (by decide)]

/-- All but the account is read from the properties. -/
theorem uncachedOf_congr (haccount : account p env = account q env')
    (h : ∀ name ∈ uncachedProperties, name ∉ accountProperties → p.value? name = q.value? name) :
    uncachedOf p env = uncachedOf q env' := by
  have hroot : rootOf p = rootOf q := by
    unfold rootOf
    rw [h "prefix" (by decide) (by decide), h "namespace" (by decide) (by decide)]
  unfold uncachedOf numberOr
  rw [haccount, hroot, h "container" (by decide) (by decide),
    h "endpointProtocol" (by decide) (by decide), h "endpoint" (by decide) (by decide),
    h "cdn.host" (by decide) (by decide), h "allowByteRange" (by decide) (by decide),
    h "directdownload" (by decide) (by decide), h "directdownload.expire" (by decide) (by decide),
    h "digest" (by decide) (by decide)]

/-- The properties of the cache are not looked at while it is off. -/
theorem cachingOf_congr (hoff : p.value? "nocache" = q.value? "nocache")
    (h : readFlag (p.value? "nocache") = false →
      ∀ name ∈ cacheProperties, p.value? name = q.value? name) : cachingOf p = cachingOf q := by
  unfold cachingOf numberOr
  rw [← hoff]
  cases hflag : readFlag (p.value? "nocache") with
  | true => rfl
  | false =>
    have hcache := h hflag
    rw [hcache "cachedir" (by decide), hcache cacheSizeProperty (by decide),
      hcache "cachecount" (by decide), hcache "cacheminage" (by decide)]

/-- Readings that agree on what counts have the same outcome. -/
theorem ofProperties_congr (h : SameInputs p q env env') :
    ofProperties p env = ofProperties q env' := by
  have haccount : account p env = account q env' :=
    account_congr (h.settings _ (by decide) (by decide) (by decide)) h.name h.environment
  have huncached : uncachedOf p env = uncachedOf q env' := by
    refine uncachedOf_congr haccount fun name hname hother => h.settings name ?_ ?_ ?_
    · exact List.mem_append_left _ hname
    · rintro rfl
      exact hother (by decide)
    · intro hmem
      revert name
      decide
  have hcaching : cachingOf p = cachingOf q :=
    cachingOf_congr (h.settings _ (by decide) (by decide) (by decide)) h.cache
  rw [ofProperties_eq, ofProperties_eq, huncached, hcaching]

/-! ## What is in a configuration -/

theorem uncachedOf_eq_ok (h : uncachedOf p env = .ok c) :
    account p env = (some c.accountName, some c.accountKey) ∧ c.root = rootOf p := by
  unfold uncachedOf at h
  obtain ⟨name, hname, h⟩ := ok_of_bind h
  obtain ⟨key, hkey, h⟩ := ok_of_bind h
  obtain ⟨container, -, h⟩ := ok_of_bind h
  obtain ⟨expire, -, h⟩ := ok_of_bind h
  dsimp only at h
  split at h
  all_goals
    obtain ⟨digest, -, h⟩ := ok_of_bind h
    obtain rfl := Except.ok.inj h
    exact ⟨Prod.ext (demand_eq_ok_iff.1 hname) (demand_eq_ok_iff.1 hkey), rfl⟩

/-- The account and the beginning of all paths go into a configuration as they were read. -/
theorem ofProperties_eq_ok (h : ofProperties p env = .ok c) :
    account p env = (some c.accountName, some c.accountKey) ∧ c.root = rootOf p := by
  rw [ofProperties_eq] at h
  obtain ⟨d, huncached, h⟩ := ok_of_bind h
  obtain ⟨caching?, -, h⟩ := ok_of_bind h
  obtain ⟨haccount, hroot⟩ := uncachedOf_eq_ok huncached
  obtain rfl := Except.ok.inj h
  exact ⟨haccount, hroot⟩

/-- The account comes from the properties or from the environment, but not from both. -/
theorem account_of_ofProperties (h : ofProperties p env = .ok c) :
    (p.value? "account.name" = some c.accountName ∧ p.value? "account.key" = some c.accountKey) ∨
      (p.value? "account.key" = none ∧ env accountVariable = some c.accountName ∧
        env accountKeyVariable = some c.accountKey) := by
  have haccount := (ofProperties_eq_ok h).1
  unfold account at haccount
  cases hkey : p.value? "account.key" with
  | some key =>
    rw [hkey] at haccount
    exact .inl (Prod.mk.inj haccount)
  | none =>
    rw [hkey] at haccount
    exact .inr ⟨rfl, Prod.mk.inj haccount⟩

/-- The beginning of all paths is closed. -/
theorem root_of_ofProperties (h : ofProperties p env = .ok c) : (Namespace.mk c.root).Closed := by
  rw [(ofProperties_eq_ok h).2]
  unfold rootOf
  split
  · exact Namespace.closed_ofText _
  · exact Namespace.closed_ofText _

end Config

theorem RemoteStore.space_of_ofConfig {name : String} {c : Config} {tempDir : TempDir}
    {r : RemoteStore} (h : ofConfig name c tempDir = .ok r) : r.space = .ofText c.root := by
  unfold ofConfig at h
  split at h
  · obtain rfl := Except.ok.inj h
    rfl
  · cases h
  · cases h

namespace Config

/-- **What a configuration depends on.** Two readings have the same outcome, a configuration or an
error, if they agree on the environment variables of the account and on the trimmed texts of the
properties that a provider knows, without those of the cache where it is off. With a key of the
account in the properties the environment has no influence at all, and without one the name in the
properties has none. The account of a configuration has its name and its key from one source. The
beginning of all paths is empty or ends with the delimiter, so it is also that of the store of the
configuration. -/
theorem ofProperties_determined (p : Properties) (env : String → Option String) :
    (∀ q env',
      (∀ name ∈ knownProperties,
        (name ∈ cacheProperties → readFlag (p.value? "nocache") = false) →
          p.value? name = q.value? name) →
      (∀ name ∈ accountVariables, env name = env' name) →
        ofProperties p env = ofProperties q env') ∧
    (p.value? "account.key" ≠ none → ∀ env', ofProperties p env = ofProperties p env') ∧
    (p.value? "account.key" = none → ∀ q,
      (∀ name ∈ knownProperties, name ≠ "account.name" → p.value? name = q.value? name) →
        ofProperties p env = ofProperties q env) ∧
    ∀ c, ofProperties p env = .ok c →
      ((p.value? "account.name" = some c.accountName ∧ p.value? "account.key" = some c.accountKey) ∨
        (p.value? "account.key" = none ∧ env accountVariable = some c.accountName ∧
          env accountKeyVariable = some c.accountKey)) ∧
      (Namespace.mk c.root).Closed ∧ Namespace.ofText c.root = ⟨c.root⟩ ∧
      ∀ name tempDir r, RemoteStore.ofConfig name c tempDir = .ok r → r.space = ⟨c.root⟩ := by
  have hknown : ∀ name ∈ cacheProperties, name ∈ knownProperties := by decide
  refine ⟨fun q env' h henv => ofProperties_congr ?_, fun hkey env' => ofProperties_congr ?_,
    fun hkey q h => ofProperties_congr ?_, fun c hc => ?_⟩
  · exact {
      settings := fun name hname _ hcache => h name hname fun hmem => absurd hmem hcache
      cache := fun hon name hname => h name (hknown name hname) fun _ => hon
      name := fun _ => h "account.name" (by decide) fun hmem => absurd hmem (by decide)
      environment := fun _ => henv }
  · exact {
      settings := fun _ _ _ _ => rfl
      cache := fun _ _ _ => rfl
      name := fun _ => rfl
      environment := fun hnone => absurd hnone hkey }
  · have hname : "account.name" ∉ cacheProperties := by decide
    exact {
      settings := fun name hname hne _ => h name hname hne
      cache := fun _ name hcache =>
        h name (hknown name hcache) fun heq => hname (heq ▸ hcache)
      name := fun hsome => absurd hkey hsome
      environment := fun _ _ _ => rfl }
  · have hclosed := root_of_ofProperties hc
    have hroot := Namespace.ofText_of_closed hclosed
    exact ⟨account_of_ofProperties hc, hclosed, hroot, fun name tempDir r hr =>
      (RemoteStore.space_of_ofConfig hr).trans hroot⟩

/-- Blanks, unknown names, what is said of a cache that is off and the environment behind a key
change nothing; nor does a name without a key. -/
theorem ofProperties_determined_past_blanks :
    let base : Properties := (ExtTreeMap.insert ∅ "container" "box").insert "nocache" "TRUE"
    let p : Properties := (base.insert "account.name" "acct").insert "account.key" "a2V5"
    let q : Properties :=
      ((p.insert "account.name" " acct ").insert "cachesize" "lots").insert "colour" "red"
    let keyless : Properties := base.insert "account.key" " "
    let named : Properties := keyless.insert "account.name" "ignored"
    ofProperties q some = ofProperties p (fun _ => none) ∧
      ofProperties named some = ofProperties keyless some ∧
      ∃ c, ofProperties p (fun _ => none) = .ok c ∧ c.accountName = "acct" ∧
        (Namespace.mk c.root).Closed := by
  intro base p q keyless named
  obtain ⟨hsame, -, -, hc⟩ := ofProperties_determined p fun _ => none
  obtain ⟨-, henv, -, -⟩ := ofProperties_determined q some
  obtain ⟨-, -, hname, -⟩ := ofProperties_determined keyless some
  refine ⟨?_, ?_, _, rfl, rfl, (hc _ rfl).2.1⟩
  · have hkey : q.value? "account.key" ≠ none := by decide
    rw [henv hkey fun _ => none]
    exact (hsame q _ (by decide) fun _ _ => rfl).symm
  · exact (hname rfl named (by decide)).symm

end Config

end BlobVault
