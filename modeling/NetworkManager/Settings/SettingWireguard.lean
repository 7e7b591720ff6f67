import NetworkManager.Lib.Bytes
import NetworkManager.Lib.Runs
import Mathlib.Data.List.InsertIdx
import Mathlib.Data.List.Nodup

/-!
# WireGuard peers

The peers of a WireGuard setting are an array of `PeerData`, which know their index and are found by
public key with a hash table. A peer caches in flags whether its keys are valid.
-/

namespace NetworkManager.Settings

open Lib List

/-! ## Peers -/

/-- `nm_utils_base64secret_normalize()` for the length of the keys, the check of an endpoint, and
how `_peer_append_allowed_ip()` prints an address -/
structure WireguardEnv where
  normalizeKey : Bytes → Option Bytes
  endpointHost : Bytes → Bool
  normalizeIp : Bytes → Option Bytes

/-- A normalized text is normalized already, and an address does not start with an `X`. -/
structure WireguardEnv.Lawful (env : WireguardEnv) : Prop where
  key : ∀ k k', env.normalizeKey k = some k' → env.normalizeKey k' = some k'
  ip : ∀ a a', env.normalizeIp a = some a' → env.normalizeIp a' = some a' ∧
    a'.head? ≠ some ('X' : UInt8)

/-- `NMWireGuardPeer`, new by default; an endpoint is known by its text -/
structure WireguardPeer where
  publicKey : Option Bytes := none
  publicKeyValid : Bool := false
  presharedKey : Option Bytes := none
  presharedKeyValid : Bool := false
  presharedKeyFlags : ℕ := 4
  endpoint : Option Bytes := none
  persistentKeepalive : UInt16 := 0
  allowedIps : List Bytes := []
deriving DecidableEq

namespace WireguardPeer

variable {env : WireguardEnv} {p q : WireguardPeer} {key : Bytes}

def newClone (p : WireguardPeer) (withSecrets : Bool) : WireguardPeer :=
  { p with presharedKey := if withSecrets then p.presharedKey else none }

def setPublicKey (env : WireguardEnv) (p : WireguardPeer) (publicKey : Option Bytes)
    (acceptInvalid : Bool) : WireguardPeer :=
  match publicKey with
  | none => { p with publicKey := none }
  | some key =>
    match env.normalizeKey key with
    | none =>
      if acceptInvalid then { p with publicKey := some key, publicKeyValid := false } else p
    | some normalized => { p with publicKey := some normalized, publicKeyValid := true }

def setPresharedKey (env : WireguardEnv) (p : WireguardPeer) (presharedKey : Option Bytes)
    (acceptInvalid : Bool) : WireguardPeer :=
  match presharedKey with
  | none => { p with presharedKey := none }
  | some key =>
    match env.normalizeKey key with
    | none =>
      if acceptInvalid then { p with presharedKey := some key, presharedKeyValid := false } else p
    | some normalized => { p with presharedKey := some normalized, presharedKeyValid := true }

def setEndpoint (env : WireguardEnv) (p : WireguardPeer) (endpoint : Option Bytes)
    (allowInvalid : Bool) : WireguardPeer :=
  match endpoint with
  | none => { p with endpoint := none }
  | some text =>
    if allowInvalid ∨ env.endpointHost text then { p with endpoint := some text } else p

def allowedIpInvalidX : UInt8 := 'X'

/-- `_peer_append_allowed_ip()`, and whether it was valid -/
def appendAllowedIp (env : WireguardEnv) (p : WireguardPeer) (allowedIp : Bytes)
    (acceptInvalid : Bool) : WireguardPeer × Bool :=
  match env.normalizeIp allowedIp with
  | none =>
    (if acceptInvalid then
      { p with allowedIps := p.allowedIps ++ [allowedIpInvalidX :: allowedIp] } else p, false)
  | some text => ({ p with allowedIps := p.allowedIps ++ [text] }, true)

/-- The functions that modify a peer -/
inductive Edit where
  | setPublicKey (publicKey : Option Bytes) (acceptInvalid : Bool)
  | setPresharedKey (presharedKey : Option Bytes) (acceptInvalid : Bool)
  | setPresharedKeyFlags (flags : ℕ)
  | setPersistentKeepalive (keepalive : UInt16)
  | setEndpoint (endpoint : Option Bytes) (allowInvalid : Bool)
  | appendAllowedIp (allowedIp : Bytes) (acceptInvalid : Bool)
  | removeAllowedIp (idx : ℕ)
  | clearAllowedIps
  | newClone (withSecrets : Bool)

def edit (env : WireguardEnv) (p : WireguardPeer) : Edit → WireguardPeer
  | .setPublicKey key accept => p.setPublicKey env key accept
  | .setPresharedKey key accept => p.setPresharedKey env key accept
  | .setPresharedKeyFlags flags => { p with presharedKeyFlags := flags }
  | .setPersistentKeepalive keepalive => { p with persistentKeepalive := keepalive }
  | .setEndpoint endpoint allow => p.setEndpoint env endpoint allow
  | .appendAllowedIp ip accept => (p.appendAllowedIp env ip accept).1
  | .removeAllowedIp idx => { p with allowedIps := p.allowedIps.eraseIdx idx }
  | .clearAllowedIps => { p with allowedIps := [] }
  | .newClone withSecrets => p.newClone withSecrets

/-- A peer that the functions can make of a new one -/
def Built (env : WireguardEnv) (p : WireguardPeer) : Prop :=
  ∃ edits : List Edit, edits.foldl (edit env) {} = p

/-- `nm_wireguard_peer_get_allowed_ip()` of an entry: whether it is valid, and the text -/
def getAllowedIp (entry : Bytes) : Bool × Bytes :=
  if entry.head? = some allowedIpInvalidX then (false, entry.tail) else (true, entry)

/-- All getters of the two peers agree. -/
structure SameGetters (p q : WireguardPeer) : Prop where
  publicKey : p.publicKey = q.publicKey
  presharedKey : p.presharedKey = q.presharedKey
  presharedKeyFlags : p.presharedKeyFlags = q.presharedKeyFlags
  endpoint : p.endpoint = q.endpoint
  persistentKeepalive : p.persistentKeepalive = q.persistentKeepalive
  allowedIps : p.allowedIps.map getAllowedIp = q.allowedIps.map getAllowedIp

/-- `nm_wireguard_peer_cmp() == 0` with `NM_SETTING_COMPARE_FLAG_EXACT` -/
def cmpEqual (p q : WireguardPeer) : Bool :=
  p.publicKeyValid == q.publicKeyValid && p.publicKey == q.publicKey &&
    p.endpoint == q.endpoint && p.persistentKeepalive == q.persistentKeepalive &&
    p.allowedIps == q.allowedIps && p.presharedKeyFlags == q.presharedKeyFlags &&
    p.presharedKeyValid == q.presharedKeyValid && p.presharedKey == q.presharedKey

/-- `nm_wireguard_peer_is_valid()` for the properties that are no secrets -/
def isValid (env : WireguardEnv) (p : WireguardPeer) : Bool :=
  p.publicKey.isSome && p.publicKeyValid && decide (p.presharedKeyFlags ∈ [0, 1, 2, 4]) &&
    p.endpoint.all env.endpointHost &&
    p.allowedIps.all fun entry => entry.head? != some allowedIpInvalidX

/-! ## Validity of the keys -/

/-- The flag of a key that is set tells whether it is valid, and then it is normalized. -/
def KeyTruthful (env : WireguardEnv) (key : Option Bytes) (valid : Bool) : Prop :=
  ∀ k, key = some k → env.normalizeKey k = if valid then some k else none

/-- An entry of the allowed IPs is marked, or it is normalized. -/
def IpTruthful (env : WireguardEnv) (entry : Bytes) : Prop :=
  entry.head? = some allowedIpInvalidX ∨ env.normalizeIp entry = some entry

structure Truthful (env : WireguardEnv) (p : WireguardPeer) : Prop where
  publicKey : KeyTruthful env p.publicKey p.publicKeyValid
  presharedKey : KeyTruthful env p.presharedKey p.presharedKeyValid
  allowedIps : ∀ entry ∈ p.allowedIps, IpTruthful env entry

/-- Without a preshared key, its flag is not set. -/
def Fresh (p : WireguardPeer) : Prop := p.presharedKey = none → p.presharedKeyValid = false

theorem truthful_new : Truthful env {} where
  publicKey := fun k h => by cases h
  presharedKey := fun k h => by cases h
  allowedIps := fun entry h => by cases h

theorem KeyTruthful.of_normalize (henv : env.Lawful) {k : Bytes} (h : env.normalizeKey key = some k)
    : KeyTruthful env (some k) true := by
  intro k' hk'
  cases hk'
  simpa using henv.key _ _ h

theorem KeyTruthful.of_invalid (h : env.normalizeKey key = none) :
    KeyTruthful env (some key) false := by
  intro k' hk'
  cases hk'
  simpa using h

theorem keyTruthful_none {valid : Bool} : KeyTruthful env none valid := fun k h => by cases h

theorem Truthful.setPublicKey (henv : env.Lawful) (h : p.Truthful env) (key : Option Bytes)
    (accept : Bool) : (p.setPublicKey env key accept).Truthful env := by
  unfold WireguardPeer.setPublicKey
  split
  · exact { h with publicKey := keyTruthful_none }
  · split
    case h_1 hn =>
      split
      · exact { h with publicKey := .of_invalid hn }
      · exact h
    case h_2 hn => exact { h with publicKey := .of_normalize henv hn }

theorem Truthful.setPresharedKey (henv : env.Lawful) (h : p.Truthful env) (key : Option Bytes)
    (accept : Bool) : (p.setPresharedKey env key accept).Truthful env := by
  unfold WireguardPeer.setPresharedKey
  split
  · exact { h with presharedKey := keyTruthful_none }
  · split
    case h_1 hn =>
      split
      · exact { h with presharedKey := .of_invalid hn }
      · exact h
    case h_2 hn => exact { h with presharedKey := .of_normalize henv hn }

theorem Truthful.newClone (h : p.Truthful env) (withSecrets : Bool) :
    (p.newClone withSecrets).Truthful env := by
  cases withSecrets with
  | true => exact h
  | false => exact { h with presharedKey := keyTruthful_none }

theorem Truthful.appendAllowedIp (henv : env.Lawful) (h : p.Truthful env) (ip : Bytes)
    (accept : Bool) : (p.appendAllowedIp env ip accept).1.Truthful env := by
  have happend : ∀ entry, IpTruthful env entry →
      Truthful env { p with allowedIps := p.allowedIps ++ [entry] } := fun entry hentry =>
    { h with
      allowedIps := fun e he => by
        rcases mem_append.mp he with he | he
        · exact h.allowedIps e he
        · rw [mem_singleton.mp he]
          exact hentry }
  unfold WireguardPeer.appendAllowedIp
  split
  · cases accept with
    | true => exact happend _ (.inl rfl)
    | false => exact h
  case h_2 hn => exact happend _ (.inr (henv.ip _ _ hn).1)

theorem Built.truthful (henv : env.Lawful) (h : p.Built env) : p.Truthful env := by
  obtain ⟨edits, rfl⟩ := h
  apply foldl_invariant (I := Truthful env)
  · intro p e hp
    cases e with
    | setPublicKey key accept => exact hp.setPublicKey henv key accept
    | setPresharedKey key accept => exact hp.setPresharedKey henv key accept
    | setPresharedKeyFlags flags => exact { hp with }
    | setPersistentKeepalive keepalive => exact { hp with }
    | setEndpoint endpoint allow =>
      unfold edit setEndpoint
      simp only
      split
      · exact { hp with }
      · split
        · exact { hp with }
        · exact hp
    | appendAllowedIp ip accept => exact hp.appendAllowedIp henv ip accept
    | removeAllowedIp idx =>
      exact { hp with allowedIps := fun e he => hp.allowedIps e (mem_of_mem_eraseIdx he) }
    | clearAllowedIps => exact { hp with allowedIps := fun e he => by cases he }
    | newClone withSecrets => exact hp.newClone withSecrets
  · exact truthful_new

theorem getAllowedIp_injective : Function.Injective getAllowedIp := by
  intro x y h
  unfold getAllowedIp at h
  split at h <;> split at h
  case isTrue.isTrue hx hy =>
    have htail := (Prod.mk.inj h).2
    cases x with
    | nil => cases hx
    | cons a x =>
      cases y with
      | nil => cases hy
      | cons b y =>
        cases hx
        cases hy
        exact congrArg _ htail
  case isTrue.isFalse => cases (Prod.mk.inj h).1
  case isFalse.isTrue => cases (Prod.mk.inj h).1
  case isFalse.isFalse => exact (Prod.mk.inj h).2

theorem flag_eq {key : Option Bytes} {v w : Bool} (h : KeyTruthful env key v)
    (h' : KeyTruthful env key w) (hv : key = none → v = false) (hw : key = none → w = false) :
    v = w := by
  cases key with
  | none => rw [hv rfl, hw rfl]
  | some k =>
    have heq := (h k rfl).symm.trans (h' k rfl)
    cases v <;> cases w <;> simp_all

theorem cmpEqual_of_sameGetters (hp : p.Truthful env) (hq : q.Truthful env) (hfp : p.Fresh)
    (hfq : q.Fresh) (hkey : p.publicKey ≠ none) (h : p.SameGetters q) :
    p.cmpEqual q = true := by
  have hips : p.allowedIps = q.allowedIps :=
    map_injective_iff.mpr getAllowedIp_injective h.allowedIps
  have hpub : p.publicKeyValid = q.publicKeyValid :=
    flag_eq hp.publicKey (h.publicKey ▸ hq.publicKey) (fun h => absurd h hkey)
      (fun h => absurd h hkey)
  have hpsk : p.presharedKeyValid = q.presharedKeyValid :=
    flag_eq hp.presharedKey (h.presharedKey ▸ hq.presharedKey) hfp
      (fun hnone => hfq (h.presharedKey ▸ hnone))
  simp [cmpEqual, hpub, hpsk, hips, h.publicKey, h.presharedKey, h.presharedKeyFlags, h.endpoint,
    h.persistentKeepalive]

end WireguardPeer

/-! ## The peers of a setting -/

structure PeerData where
  publicKey : Bytes
  peer : WireguardPeer
  idx : ℕ

/-- The array and the hash table of `NMSettingWireGuardPrivate`. Each `PeerData` has a number, that
is its address; the hash table finds it by the public key that it had when it was added. -/
structure WireguardPeers where
  data : ℕ → PeerData
  next : ℕ
  arr : List ℕ
  hash : Bytes → Option ℕ

namespace WireguardPeers

def init : WireguardPeers where
  data := fun _ => ⟨[], {}, 0⟩
  next := 0
  arr := []
  hash := fun _ => none

def peers (s : WireguardPeers) : List WireguardPeer := s.arr.map fun pd => (s.data pd).peer

def remove (s : WireguardPeers) (pd : ℕ) : WireguardPeers :=
  { s with
    data := fun x =>
      if x ∈ s.arr.drop ((s.data pd).idx + 1) then { s.data x with idx := (s.data x).idx - 1 }
      else s.data x
    arr := s.arr.eraseIdx (s.data pd).idx
    hash := Function.update s.hash (s.data pd).publicKey none }

/-- The end of `_peers_set()` for a peer that replaces another one -/
def replace (s : WireguardPeers) (pd : ℕ) (publicKey : Bytes) (peer : WireguardPeer) :
    WireguardPeers :=
  { s with
    data := Function.update s.data pd { s.data pd with publicKey := publicKey, peer := peer }
    hash := Function.update (Function.update s.hash (s.data pd).publicKey none) publicKey
      (some pd) }

/-- The end of `_peers_set()` for a peer that is appended -/
def push (s : WireguardPeers) (pd : ℕ) (publicKey : Bytes) (peer : WireguardPeer) :
    WireguardPeers :=
  { data := Function.update s.data pd ⟨publicKey, peer, s.arr.length⟩
    next := max s.next (pd + 1)
    arr := s.arr ++ [pd]
    hash := Function.update s.hash publicKey (some pd) }

/-- `_peers_set()`. A peer that is where it is set already is left there, which is what setting it
again gives. -/
def set (s : WireguardPeers) (peer : WireguardPeer) (idx : ℕ) (checkSameKey : Bool) :
    WireguardPeers :=
  let publicKey := peer.publicKey.getD []
  match s.arr[idx]? with
  | some pdIdx =>
    let checkSameKey := checkSameKey && (s.data pdIdx).peer.publicKey != peer.publicKey
    let s := match if checkSameKey then s.hash publicKey else none with
      | some pdSameKey => s.remove pdSameKey
      | none => s
    s.replace pdIdx publicKey peer
  | none =>
    match if checkSameKey then s.hash publicKey else none with
    | some pdSameKey => (s.remove pdSameKey).push pdSameKey publicKey peer
    | none => s.push s.next publicKey peer

def append (s : WireguardPeers) (peer : WireguardPeer) (checkSameKey : Bool) : WireguardPeers :=
  s.set peer s.arr.length checkSameKey

def setPeer (s : WireguardPeers) (peer : WireguardPeer) (idx : ℕ) : WireguardPeers :=
  if idx ≤ s.arr.length then s.set peer idx true else s

def appendPeer (s : WireguardPeers) (peer : WireguardPeer) : WireguardPeers := s.append peer true

def removePeer (s : WireguardPeers) (idx : ℕ) : WireguardPeers :=
  match s.arr[idx]? with
  | some pd => s.remove pd
  | none => s

/-- `_peers_clear()`, the last one first -/
def clearPeers (s : WireguardPeers) : WireguardPeers :=
  (List.range s.arr.length).foldr (fun idx s => s.removePeer idx) s

def secretName (publicKey : Bytes) : Bytes := ascii "peers." ++ publicKey ++ ascii ".preshared-key"

/-- One round of the loop in `clear_secrets()` -/
def clearSecret (filter : Bytes → ℕ → Bool) (s : WireguardPeers) (idx : ℕ) : WireguardPeers :=
  match s.arr[idx]? with
  | none => s
  | some pd =>
    let peer := (s.data pd).peer
    if peer.presharedKey = none then s
    else if filter (secretName (peer.publicKey.getD [])) peer.presharedKeyFlags then
      s.set (peer.newClone false) idx false
    else s

/-- `clear_secrets()`; without a function, the filter is always true -/
def clearSecrets (filter : Bytes → ℕ → Bool) (s : WireguardPeers) : WireguardPeers :=
  (List.range s.arr.length).foldl (clearSecret filter) s

/-- A peer in a variant of type `a{sv}` -/
structure DbusPeer where
  publicKey : Option Bytes
  endpoint : Option Bytes
  presharedKey : Option Bytes
  presharedKeyFlags : Option ℕ
  persistentKeepalive : Option ℕ
  allowedIps : Option (List Bytes)

/-- `_peers_get_by_public_key()` with the normalized key as well -/
def getByPublicKey (env : WireguardEnv) (s : WireguardPeers) (publicKey : Bytes) : Option ℕ :=
  (s.hash publicKey).or ((env.normalizeKey publicKey).bind s.hash)

/-- One round of the loop in `update_one_secret()` -/
def updateSecret (env : WireguardEnv) (s : WireguardPeers) (var : DbusPeer) : WireguardPeers :=
  match var.publicKey.bind (s.getByPublicKey env) with
  | none => s
  | some pd =>
    match var.presharedKey with
    | none => s
    | some key =>
      if (s.data pd).peer.presharedKey = some key then s
      else
        s.set (((s.data pd).peer.newClone false).setPresharedKey env (some key) true)
          (s.data pd).idx false

/-- `update_one_secret()` for the peers -/
def updateSecrets (env : WireguardEnv) (s : WireguardPeers) (vars : List DbusPeer) :
    WireguardPeers :=
  vars.foldl (updateSecret env) s

/-- `peers_to_dbus()` of a peer with all secrets -/
def toDbusPeer (peer : WireguardPeer) : DbusPeer where
  publicKey := peer.publicKey
  endpoint := peer.endpoint
  presharedKey := peer.presharedKey
  presharedKeyFlags := if peer.presharedKeyFlags ≠ 4 then some peer.presharedKeyFlags else none
  persistentKeepalive :=
    if peer.persistentKeepalive ≠ 0 then some peer.persistentKeepalive.toNat else none
  allowedIps :=
    if peer.allowedIps ≠ [] then
      some (peer.allowedIps.map fun entry => (WireguardPeer.getAllowedIp entry).2)
    else none

/-- `peers_to_dbus()` with all secrets -/
def toDbus (s : WireguardPeers) : List DbusPeer :=
  (s.peers.filter (·.publicKey ≠ none)).map toDbusPeer

/-- The allowed IPs in `peers_from_dbus()`: an invalid one fails when strict. -/
def fromDbusAllowedIps (env : WireguardEnv) (strict : Bool) :
    List Bytes → WireguardPeer → Option WireguardPeer
  | [], peer => some peer
  | ip :: ips, peer =>
    match peer.appendAllowedIp env ip false with
    | (peer, true) => fromDbusAllowedIps env strict ips peer
    | (peer, false) => if strict then none else fromDbusAllowedIps env strict ips peer

/-- What one round of the loop in `peers_from_dbus()` does -/
inductive FromDbusStep where
  | fail
  | skip
  | append (peer : WireguardPeer)

/-- What `g_variant_lookup()` finds is set. -/
def applySome {α : Type} (value : Option α) (set : α → WireguardPeer → WireguardPeer)
    (peer : WireguardPeer) : WireguardPeer :=
  match value with
  | none => peer
  | some a => set a peer

/-- The fields in `peers_from_dbus()` before the allowed IPs -/
def fromDbusFields (env : WireguardEnv) (key : Bytes) (var : DbusPeer) : WireguardPeer :=
  let peer := WireguardPeer.setPublicKey env {} (some key) true
  let peer := applySome var.endpoint (fun text peer => peer.setEndpoint env (some text) false) peer
  let peer := applySome var.presharedKey
    (fun psk peer => peer.setPresharedKey env (some psk) true) peer
  let peer := applySome var.presharedKeyFlags
    (fun flags peer => { peer with presharedKeyFlags := flags }) peer
  applySome var.persistentKeepalive
    (fun keepalive peer => { peer with persistentKeepalive := UInt16.ofNat keepalive }) peer

/-- One round of the loop in `peers_from_dbus()`, up to appending the peer -/
def fromDbusPeer (env : WireguardEnv) (strict : Bool) (var : DbusPeer) : FromDbusStep :=
  match var.publicKey with
  | none => if strict then .fail else .skip
  | some key =>
    if env.normalizeKey key = none then if strict then .fail else .skip
    else if strict && var.endpoint.any fun text => !env.endpointHost text then .fail
    else
      match fromDbusAllowedIps env strict (var.allowedIps.getD [])
        (fromDbusFields env key var) with
      | none => .fail
      | some peer => if strict && !peer.isValid env then .fail else .append peer

/-- `peers_from_dbus()`; a failure keeps the peers that were appended before it. -/
def fromDbus (env : WireguardEnv) (strict : Bool) :
    List DbusPeer → WireguardPeers → WireguardPeers
  | [], s => s
  | var :: vars, s =>
    match fromDbusPeer env strict var with
    | .fail => s
    | .skip => fromDbus env strict vars s
    | .append peer => fromDbus env strict vars (s.append peer true)

/-- `duplicate_copy_properties()` into a new setting -/
def duplicate (s : WireguardPeers) : WireguardPeers :=
  s.peers.foldl (fun dst peer => dst.append peer false) (clearPeers init)

/-- `need_secrets()` for the peers -/
def needSecrets (s : WireguardPeers) : List Bytes :=
  (s.peers.filter fun peer =>
    peer.presharedKeyFlags &&& 4 = 0 && !peer.presharedKeyValid && peer.publicKeyValid).map
      fun peer => secretName (peer.publicKey.getD [])

/-! ## The array, the index and the hash table agree -/

/-- The array, the index fields and the hash table agree. -/
structure Agrees (s : WireguardPeers) : Prop where
  idx : ∀ (i pd : ℕ), s.arr[i]? = some pd → (s.data pd).idx = i
  hash : ∀ (key : Bytes) (pd : ℕ), s.hash key = some pd ↔ pd ∈ s.arr ∧ (s.data pd).publicKey = key
  key : ∀ pd ∈ s.arr, (s.data pd).peer.publicKey = some (s.data pd).publicKey
  next : ∀ pd ∈ s.arr, pd < s.next

variable {s : WireguardPeers} {pd : ℕ} {peer : WireguardPeer} {key : Bytes} {idx : ℕ} {check : Bool}

theorem Agrees.getElem?_idx (h : s.Agrees) (hpd : pd ∈ s.arr) :
    s.arr[(s.data pd).idx]? = some pd := by
  obtain ⟨i, hi⟩ := mem_iff_getElem?.mp hpd
  rw [h.idx i pd hi]
  exact hi

theorem Agrees.nodup (h : s.Agrees) : s.arr.Nodup := by
  rw [nodup_iff_getElem?_ne_getElem?]
  intro i j hij hj heq
  have hi := List.getElem?_eq_getElem (hij.trans hj)
  have h₁ := h.idx i _ hi
  have h₂ := h.idx j _ (heq ▸ hi)
  omega

theorem Agrees.key_injective (h : s.Agrees) {pd' : ℕ} (hpd : pd ∈ s.arr) (hpd' : pd' ∈ s.arr)
    (heq : (s.data pd).publicKey = (s.data pd').publicKey) : pd = pd' := by
  have h₁ := (h.hash _ pd).mpr ⟨hpd, rfl⟩
  have h₂ := (h.hash _ pd').mpr ⟨hpd', rfl⟩
  rw [heq, h₂] at h₁
  exact (Option.some.inj h₁).symm

theorem Agrees.distinct (h : s.Agrees) : (s.peers.map (·.publicKey)).Nodup := by
  rw [peers, map_map]
  apply List.Nodup.map_on _ h.nodup
  intro pd hpd pd' hpd' heq
  simp only [Function.comp_apply, h.key pd hpd, h.key pd' hpd', Option.some.injEq] at heq
  exact h.key_injective hpd hpd' heq

theorem agrees_init : init.Agrees where
  idx := fun i pd h => by cases h
  hash := fun key pd => by simp [init]
  key := fun pd h => by cases h
  next := fun pd h => by cases h

/-! ### Removing -/

theorem Agrees.mem_remove (h : s.Agrees) (hpd : pd ∈ s.arr) {x : ℕ} :
    x ∈ (s.remove pd).arr ↔ x ∈ s.arr ∧ x ≠ pd := by
  simp only [remove, mem_eraseIdx_iff_getElem?]
  constructor
  · rintro ⟨i, hne, hi⟩
    refine ⟨mem_of_getElem? hi, ?_⟩
    rintro rfl
    exact hne (h.idx i x hi).symm
  · rintro ⟨hx, hne⟩
    obtain ⟨i, hi⟩ := mem_iff_getElem?.mp hx
    refine ⟨i, ?_, hi⟩
    rintro rfl
    rw [h.getElem?_idx hpd] at hi
    exact hne (Option.some.inj hi).symm

theorem remove_data_publicKey (x : ℕ) :
    ((s.remove pd).data x).publicKey = (s.data x).publicKey := by
  simp only [remove]
  split <;> rfl

theorem remove_data_peer (x : ℕ) : ((s.remove pd).data x).peer = (s.data x).peer := by
  simp only [remove]
  split <;> rfl

theorem Agrees.remove (h : s.Agrees) (hpd : pd ∈ s.arr) : (s.remove pd).Agrees where
  idx := by
    intro i x hx
    have hidx := h.idx
    simp only [WireguardPeers.remove, List.getElem?_eraseIdx] at hx ⊢
    split at hx
    case isTrue hlt =>
      have hnot : x ∉ s.arr.drop ((s.data pd).idx + 1) := by
        intro hmem
        obtain ⟨j, hj⟩ := mem_iff_getElem?.mp hmem
        rw [List.getElem?_drop] at hj
        have h₁ := hidx _ _ hj
        have h₂ := hidx _ _ hx
        omega
      rw [if_neg hnot]
      exact hidx i x hx
    case isFalse hlt =>
      have hmem : x ∈ s.arr.drop ((s.data pd).idx + 1) := by
        apply mem_iff_getElem?.mpr
        refine ⟨i - (s.data pd).idx, ?_⟩
        rw [List.getElem?_drop, ← hx]
        congr 1
        omega
      rw [if_pos hmem]
      simp only
      rw [hidx _ _ hx]
      omega
  hash := by
    intro key x
    rw [h.mem_remove hpd, remove_data_publicKey]
    simp only [WireguardPeers.remove]
    by_cases hkey : key = (s.data pd).publicKey
    · subst hkey
      rw [Function.update_self]
      constructor
      · intro hx
        cases hx
      · rintro ⟨⟨hx, hne⟩, heq⟩
        exact absurd (h.key_injective hx hpd heq) hne
    · rw [Function.update_of_ne hkey, h.hash]
      constructor
      · rintro ⟨hx, heq⟩
        refine ⟨⟨hx, ?_⟩, heq⟩
        rintro rfl
        exact hkey heq.symm
      · rintro ⟨⟨hx, -⟩, heq⟩
        exact ⟨hx, heq⟩
  key := by
    intro x hx
    rw [remove_data_publicKey, remove_data_peer]
    exact h.key x ((h.mem_remove hpd).mp hx).1
  next := fun x hx => h.next x ((h.mem_remove hpd).mp hx).1

theorem peers_remove : (s.remove pd).peers = s.peers.eraseIdx (s.data pd).idx := by
  simp only [peers, remove_data_peer]
  simp only [remove, eraseIdx_map]

/-! ### Replacing and appending -/

theorem Agrees.replace (h : s.Agrees) (hpd : pd ∈ s.arr) (hpeer : peer.publicKey = some key)
    (hfree : ∀ x ∈ s.arr, (s.data x).publicKey = key → x = pd) : (s.replace pd key peer).Agrees where
  idx := by
    intro i x hx
    simp only [WireguardPeers.replace] at hx ⊢
    by_cases hxpd : x = pd
    · subst hxpd
      simp [h.idx i x hx]
    · simp [hxpd, h.idx i x hx]
  hash := by
    intro k x
    simp only [WireguardPeers.replace]
    by_cases hk : k = key
    · subst hk
      rw [Function.update_self]
      constructor
      · intro hx
        cases hx
        simp [hpd]
      · rintro ⟨hx, heq⟩
        by_cases hxpd : x = pd
        · rw [hxpd]
        · rw [Function.update_of_ne hxpd] at heq
          rw [hfree x hx heq]
    · rw [Function.update_of_ne hk]
      by_cases hold : k = (s.data pd).publicKey
      · subst hold
        rw [Function.update_self]
        constructor
        · intro hx
          cases hx
        · rintro ⟨hx, heq⟩
          by_cases hxpd : x = pd
          · subst hxpd
            simp only [Function.update_self] at heq
            exact absurd heq.symm hk
          · rw [Function.update_of_ne hxpd] at heq
            exact absurd (h.key_injective hx hpd heq) hxpd
      · rw [Function.update_of_ne hold, h.hash]
        by_cases hxpd : x = pd
        · subst hxpd
          simp only [Function.update_self]
          constructor
          · rintro ⟨-, heq⟩
            exact absurd heq.symm hold
          · rintro ⟨-, heq⟩
            exact absurd heq.symm hk
        · rw [Function.update_of_ne hxpd]
  key := by
    intro x hx
    simp only [WireguardPeers.replace] at hx ⊢
    by_cases hxpd : x = pd
    · simp [hxpd, hpeer]
    · simp [hxpd, h.key x hx]
  next := h.next

theorem Agrees.push (h : s.Agrees) (hpd : pd ∉ s.arr) (hpeer : peer.publicKey = some key)
    (hfree : ∀ x ∈ s.arr, (s.data x).publicKey ≠ key) : (s.push pd key peer).Agrees where
  idx := by
    intro i x hx
    simp only [WireguardPeers.push] at hx ⊢
    rw [List.getElem?_append] at hx
    split at hx
    case isTrue hlt =>
      have hne : x ≠ pd := fun heq => hpd (heq ▸ mem_of_getElem? hx)
      rw [Function.update_of_ne hne]
      exact h.idx i x hx
    case isFalse hlt =>
      obtain ⟨hi, rfl⟩ : i - s.arr.length = 0 ∧ pd = x := by
        cases hn : i - s.arr.length with
        | zero => simpa [hn] using hx
        | succ n => simp [hn] at hx
      simp only [Function.update_self]
      omega
  hash := by
    intro k x
    simp only [WireguardPeers.push, mem_append, mem_singleton]
    by_cases hk : k = key
    · subst hk
      rw [Function.update_self]
      constructor
      · intro hx
        cases hx
        simp
      · rintro ⟨hx | rfl, heq⟩
        · have hne : x ≠ pd := fun heq => hpd (heq ▸ hx)
          rw [Function.update_of_ne hne] at heq
          exact absurd heq (hfree x hx)
        · rfl
    · rw [Function.update_of_ne hk, h.hash]
      constructor
      · rintro ⟨hx, heq⟩
        have hne : x ≠ pd := fun heq => hpd (heq ▸ hx)
        rw [Function.update_of_ne hne]
        exact ⟨.inl hx, heq⟩
      · rintro ⟨hx | rfl, heq⟩
        · have hne : x ≠ pd := fun heq => hpd (heq ▸ hx)
          rw [Function.update_of_ne hne] at heq
          exact ⟨hx, heq⟩
        · simp only [Function.update_self] at heq
          exact absurd heq.symm hk
  key := by
    intro x hx
    simp only [WireguardPeers.push, mem_append, mem_singleton] at hx ⊢
    by_cases hxpd : x = pd
    · simp [hxpd, hpeer]
    · have hmem := hx.resolve_right hxpd
      simp [hxpd, h.key x hmem]
  next := by
    intro x hx
    simp only [WireguardPeers.push, mem_append, mem_singleton] at hx ⊢
    rcases hx with hx | rfl
    · exact Nat.lt_of_lt_of_le (h.next x hx) (Nat.le_max_left _ _)
    · exact Nat.lt_of_lt_of_le (Nat.lt_succ_self x) (Nat.le_max_right _ _)

theorem peers_push (hpd : pd ∉ s.arr) : (s.push pd key peer).peers = s.peers ++ [peer] := by
  simp only [peers, WireguardPeers.push, map_append, map_singleton, Function.update_self]
  congr 1
  apply map_congr_left
  intro x hx
  have hne : x ≠ pd := fun heq => hpd (heq ▸ hx)
  rw [Function.update_of_ne hne]

/-! ### Setting a peer -/

def others (key : Bytes) (xs : List WireguardPeer) : List WireguardPeer :=
  xs.filter fun p => p.publicKey ≠ some key

theorem eq_take_append_drop {α : Type} {xs : List α} {i : ℕ} {x : α} (h : xs[i]? = some x) :
    xs = xs.take i ++ x :: xs.drop (i + 1) := by
  obtain ⟨hlt, rfl⟩ := List.getElem?_eq_some_iff.mp h
  rw [← drop_eq_getElem_cons hlt, take_append_drop]

theorem Agrees.others_eq_self (h : s.Agrees) {xs : List ℕ} (hsub : ∀ x ∈ xs, x ∈ s.arr)
    (hfree : ∀ x ∈ xs, (s.data x).publicKey ≠ key) :
    others key (xs.map fun x => (s.data x).peer) = xs.map fun x => (s.data x).peer := by
  apply filter_eq_self.mpr
  intro p hp
  obtain ⟨x, hx, rfl⟩ := mem_map.mp hp
  simpa [h.key x (hsub x hx)] using hfree x hx

theorem Agrees.peers_remove_eq (h : s.Agrees) (hpd : pd ∈ s.arr) :
    (s.remove pd).peers = others (s.data pd).publicKey s.peers := by
  have hget := h.getElem?_idx hpd
  have hsplit := eq_take_append_drop hget
  have hnodup := h.nodup
  rw [hsplit] at hnodup
  have hA : ∀ x ∈ s.arr.take (s.data pd).idx, x ≠ pd := by
    rintro x hx rfl
    exact (nodup_append.mp hnodup).2.2 x hx x mem_cons_self rfl
  have hB : ∀ x ∈ s.arr.drop ((s.data pd).idx + 1), x ≠ pd := by
    rintro x hx rfl
    exact (nodup_cons.mp (nodup_append.mp hnodup).2.1).1 hx
  have hfreeA : ∀ x ∈ s.arr.take (s.data pd).idx,
      (s.data x).publicKey ≠ (s.data pd).publicKey := fun x hx heq =>
    hA x hx (h.key_injective (mem_of_mem_take hx) hpd heq)
  have hfreeB : ∀ x ∈ s.arr.drop ((s.data pd).idx + 1),
      (s.data x).publicKey ≠ (s.data pd).publicKey := fun x hx heq =>
    hB x hx (h.key_injective (mem_of_mem_drop hx) hpd heq)
  have hpeers : s.peers = (s.arr.take (s.data pd).idx).map (fun x => (s.data x).peer) ++
      (s.data pd).peer :: (s.arr.drop ((s.data pd).idx + 1)).map (fun x => (s.data x).peer) := by
    conv_lhs => rw [peers, hsplit, map_append, map_cons]
  rw [peers_remove, eraseIdx_eq_take_drop_succ]
  conv_rhs => rw [hpeers]
  have hdel : others (s.data pd).publicKey ((s.data pd).peer ::
      (s.arr.drop ((s.data pd).idx + 1)).map fun x => (s.data x).peer) =
        (s.arr.drop ((s.data pd).idx + 1)).map fun x => (s.data x).peer := by
    rw [others, filter_cons_of_neg (by simp [h.key pd hpd])]
    exact h.others_eq_self (fun x hx => mem_of_mem_drop hx) hfreeB
  have happend : ∀ xs ys, others (s.data pd).publicKey (xs ++ ys) =
      others (s.data pd).publicKey xs ++ others (s.data pd).publicKey ys := fun xs ys =>
    filter_append _ _
  rw [happend, hdel, h.others_eq_self (fun x hx => mem_of_mem_take hx) hfreeA]
  simp [peers, map_take, map_drop]

theorem Agrees.peers_replace_eq (h : s.Agrees) (hpd : pd ∈ s.arr) :
    (s.replace pd key peer).peers =
      s.peers.map fun q => if q.publicKey = (s.data pd).peer.publicKey then peer else q := by
  simp only [peers, WireguardPeers.replace, map_map]
  apply map_congr_left
  intro x hx
  simp only [Function.comp_apply, h.key x hx, h.key pd hpd, Option.some.injEq]
  by_cases hxpd : x = pd
  · subst hxpd
    simp
  · rw [Function.update_of_ne hxpd, if_neg fun heq => hxpd (h.key_injective hx hpd heq)]

def setAt (old : WireguardPeer) (peer : WireguardPeer) (xs : List WireguardPeer) :
    List WireguardPeer :=
  (xs.filter fun q => q.publicKey ≠ peer.publicKey ∨ q.publicKey = old.publicKey).map
    fun q => if q.publicKey = old.publicKey then peer else q

theorem Agrees.hash_none (h : s.Agrees) (hnone : s.hash key = none) :
    ∀ x ∈ s.arr, (s.data x).publicKey ≠ key := by
  intro x hx heq
  have hsome := (h.hash key x).mpr ⟨hx, heq⟩
  rw [hnone] at hsome
  cases hsome

theorem Agrees.set_some (h : s.Agrees) (hpeer : peer.publicKey = some key)
    (hidx : s.arr[idx]? = some pd)
    (hcheck : check = false → ∀ x ∈ s.arr, (s.data x).publicKey = key → x = pd) :
    (s.set peer idx check).Agrees ∧
      (s.set peer idx check).peers = setAt (s.data pd).peer peer s.peers := by
  have hpd := mem_of_getElem? hidx
  have hold := h.key pd hpd
  simp only [WireguardPeers.set, hidx, hpeer, Option.getD_some, hold]
  -- no other peer has the key, and nothing is removed
  have halone : (∀ x ∈ s.arr, (s.data x).publicKey = key → x = pd) →
      (s.replace pd key peer).Agrees ∧
        (s.replace pd key peer).peers = setAt (s.data pd).peer peer s.peers := by
    intro hfree
    refine ⟨h.replace hpd hpeer hfree, ?_⟩
    rw [h.peers_replace_eq hpd, setAt]
    congr 1
    symm
    apply filter_eq_self.mpr
    intro q hq
    obtain ⟨x, hx, rfl⟩ := mem_map.mp hq
    by_cases hkx : (s.data x).publicKey = key
    · rw [hfree x hx hkx]
      simp
    · simp [h.key x hx, hpeer, hkx]
  split
  case h_1 same hsame =>
    split at hsame
    case isFalse => cases hsame
    case isTrue hc =>
      obtain ⟨hsame, hkey⟩ := (h.hash key same).mp hsame
      have hne : (s.data pd).publicKey ≠ key := by
        simpa using (Bool.and_eq_true_iff.mp hc).2
      have hpdsame : pd ≠ same := by
        rintro rfl
        exact hne hkey
      have hagrees := h.remove hsame
      have hmem : pd ∈ (s.remove same).arr := (h.mem_remove hsame).mpr ⟨hpd, hpdsame⟩
      have hfree : ∀ x ∈ (s.remove same).arr, ((s.remove same).data x).publicKey = key →
          x = pd := by
        intro x hx heq
        obtain ⟨hx, hxsame⟩ := (h.mem_remove hsame).mp hx
        rw [remove_data_publicKey, ← hkey] at heq
        exact absurd (h.key_injective hx hsame heq) hxsame
      refine ⟨hagrees.replace hmem hpeer hfree, ?_⟩
      rw [hagrees.peers_replace_eq hmem, remove_data_peer, h.peers_remove_eq hsame, hkey, others,
        setAt, hpeer, hold]
      congr 1
      apply filter_congr
      intro q _
      by_cases hq : q.publicKey = some (s.data pd).publicKey
      · simp [hq, hne]
      · simp [hq]
  case h_2 hnone =>
    apply halone
    split at hnone
    case isTrue hc =>
      intro x hx heq
      exact absurd heq (h.hash_none hnone x hx)
    case isFalse hc =>
      cases check with
      | false => exact hcheck rfl
      | true =>
        have heq : (s.data pd).publicKey = key := by simpa using hc
        intro x hx hkx
        exact h.key_injective hx hpd (hkx.trans heq.symm)

theorem Agrees.append_spec (h : s.Agrees) (hpeer : peer.publicKey = some key)
    (hcheck : check = false → ∀ x ∈ s.arr, (s.data x).publicKey ≠ key) :
    (s.append peer check).Agrees ∧ (s.append peer check).peers = others key s.peers ++ [peer] := by
  have hnone : s.arr[s.arr.length]? = none := by simp
  simp only [append, WireguardPeers.set, hnone, hpeer, Option.getD_some]
  split
  case h_1 same hsame =>
    split at hsame
    case isFalse => cases hsame
    case isTrue hc =>
      obtain ⟨hsame, hkey⟩ := (h.hash key same).mp hsame
      have hout : same ∉ (s.remove same).arr := fun hmem =>
        ((h.mem_remove hsame).mp hmem).2 rfl
      have hfree : ∀ x ∈ (s.remove same).arr, ((s.remove same).data x).publicKey ≠ key := by
        intro x hx heq
        obtain ⟨hx, hxsame⟩ := (h.mem_remove hsame).mp hx
        rw [remove_data_publicKey, ← hkey] at heq
        exact hxsame (h.key_injective hx hsame heq)
      refine ⟨(h.remove hsame).push hout hpeer hfree, ?_⟩
      rw [peers_push hout, h.peers_remove_eq hsame, hkey]
  case h_2 hnone =>
    have hfree : ∀ x ∈ s.arr, (s.data x).publicKey ≠ key := by
      split at hnone
      case isTrue => exact h.hash_none hnone
      case isFalse hc => exact hcheck (by simpa using hc)
    have hout : s.next ∉ s.arr := fun hmem => Nat.lt_irrefl _ (h.next _ hmem)
    refine ⟨h.push hout hpeer hfree, ?_⟩
    rw [peers_push hout]
    congr 1
    exact (h.others_eq_self (fun x hx => hx) hfree).symm

/-! ## Steps keep what holds of every peer -/

/-- The table agrees, and every peer has a property. -/
def Holds (P : WireguardPeer → Prop) (s : WireguardPeers) : Prop :=
  s.Agrees ∧ ∀ p ∈ s.peers, P p

variable {P : WireguardPeer → Prop} {strict : Bool} {xs : List WireguardPeer}

section

variable (h : s.Holds P)

include h

theorem Holds.of_sublist {s' : WireguardPeers} (hagrees : s'.Agrees)
    (hsub : ∀ p ∈ s'.peers, p = peer ∨ p ∈ s.peers) (hP : P peer) : s'.Holds P := by
  refine ⟨hagrees, fun p hp => ?_⟩
  rcases hsub p hp with rfl | hp
  · exact hP
  · exact h.2 p hp

theorem Holds.append (hpeer : peer.publicKey = some key) (hP : P peer) :
    (s.append peer true).Holds P := by
  obtain ⟨hagrees, hpeers⟩ := h.1.append_spec hpeer (fun h : true = false => by cases h)
  apply h.of_sublist hagrees _ hP
  intro p hp
  rw [hpeers, others] at hp
  rcases mem_append.mp hp with hp | hp
  · exact .inr (mem_of_mem_filter hp)
  · exact .inl (mem_singleton.mp hp)

theorem Holds.set_some (hpeer : peer.publicKey = some key) (hP : P peer)
    (hidx : s.arr[idx]? = some pd)
    (hcheck : check = false → ∀ x ∈ s.arr, (s.data x).publicKey = key → x = pd) :
    (s.set peer idx check).Holds P := by
  obtain ⟨hagrees, hpeers⟩ := h.1.set_some hpeer hidx hcheck
  apply h.of_sublist hagrees _ hP
  intro p hp
  rw [hpeers, setAt] at hp
  obtain ⟨q, hq, rfl⟩ := mem_map.mp hp
  split
  · exact .inl rfl
  · exact .inr (mem_of_mem_filter hq)

theorem Holds.setPeer (hpeer : peer.publicKey = some key) (hP : P peer) (idx : ℕ)
    : (s.setPeer peer idx).Holds P := by
  unfold WireguardPeers.setPeer
  split
  case isFalse => exact h
  case isTrue hle =>
    cases hidx : s.arr[idx]? with
    | none =>
      have hlen : idx = s.arr.length := by
        have hge := List.getElem?_eq_none_iff.mp hidx
        omega
      rw [hlen]
      exact h.append hpeer hP
    | some pd => exact h.set_some hpeer hP hidx (fun h => by cases h)

theorem Holds.removePeer (idx : ℕ) : (s.removePeer idx).Holds P := by
  unfold WireguardPeers.removePeer
  split
  case h_2 => exact h
  case h_1 pd hidx =>
    have hpd := mem_of_getElem? hidx
    refine ⟨h.1.remove hpd, fun p hp => h.2 p ?_⟩
    rw [h.1.peers_remove_eq hpd] at hp
    exact mem_of_mem_filter hp

theorem Holds.clearPeers : s.clearPeers.Holds P := by
  unfold WireguardPeers.clearPeers
  generalize s.arr.length = n
  induction List.range n with
  | nil => exact h
  | cons idx idxs ih => exact ih.removePeer idx

theorem Holds.set_same (hidx : s.arr[idx]? = some pd)
    (hpeer : peer.publicKey = (s.data pd).peer.publicKey) (hP : P peer) :
    (s.set peer idx false).Holds P := by
  have hpd := mem_of_getElem? hidx
  rw [h.1.key pd hpd] at hpeer
  exact h.set_some hpeer hP hidx fun _ x hx heq => h.1.key_injective hx hpd heq

theorem Holds.clearSecrets {filter : Bytes → ℕ → Bool}
    (hclear : ∀ p, P p → p.presharedKey ≠ none → filter (secretName (p.publicKey.getD [])) p.presharedKeyFlags = true → P (p.newClone false))
    : (s.clearSecrets filter).Holds P := by
  unfold WireguardPeers.clearSecrets
  apply foldl_invariant (I := Holds P) _ h
  intro s idx h
  unfold clearSecret
  split
  case h_1 => exact h
  case h_2 pd hidx =>
    have hpd := mem_of_getElem? hidx
    simp only
    split
    · exact h
    · split
      case isTrue hne hfilter =>
        exact h.set_same hidx rfl
          (hclear _ (h.2 _ (mem_map_of_mem hpd)) hne hfilter)
      case isFalse => exact h

theorem Holds.getByPublicKey_mem {env : WireguardEnv} (hget : s.getByPublicKey env key = some pd)
    : pd ∈ s.arr := by
  rcases Option.or_eq_some_iff.mp hget with hget | ⟨-, hget⟩
  · exact ((h.1.hash _ _).mp hget).1
  · obtain ⟨k, -, hget⟩ := Option.bind_eq_some_iff.mp hget
    exact ((h.1.hash _ _).mp hget).1

theorem Holds.updateSecrets {env : WireguardEnv}
    (hupdate : ∀ p k, P p → P ((p.newClone false).setPresharedKey env (some k) true))
    (hkey : ∀ (p : WireguardPeer) k, ((p.newClone false).setPresharedKey env (some k) true).publicKey = p.publicKey)
    (vars : List DbusPeer) : (s.updateSecrets env vars).Holds P := by
  apply foldl_invariant (I := Holds P) _ h
  intro s var h
  unfold updateSecret
  split
  case h_1 => exact h
  case h_2 pd hget =>
    obtain ⟨k, -, hget⟩ := Option.bind_eq_some_iff.mp hget
    have hpd := h.getByPublicKey_mem hget
    split
    case h_1 => exact h
    case h_2 k _ =>
      split
      · exact h
      · exact h.set_same (h.1.getElem?_idx hpd) (hkey _ k)
          (hupdate _ k (h.2 _ (mem_map_of_mem hpd)))

end

theorem Holds.fromDbus {env : WireguardEnv} (vars : List DbusPeer)
    (hvar : ∀ var peer, fromDbusPeer env strict var = .append peer → P peer ∧ peer.publicKey ≠ none) :
    ∀ {s : WireguardPeers}, s.Holds P → (fromDbus env strict vars s).Holds P := by
  induction vars with
  | nil => exact fun h => h
  | cons var vars ih =>
    intro s h
    unfold WireguardPeers.fromDbus
    split
    · exact h
    · exact ih h
    case h_3 peer hpeer =>
      obtain ⟨hP, hne⟩ := hvar var peer hpeer
      obtain ⟨key, hkey⟩ := Option.ne_none_iff_exists'.mp hne
      exact ih (h.append hkey hP)

theorem Agrees.append_all :
    ∀ {s : WireguardPeers}, s.Agrees → (∀ p ∈ xs, p.publicKey ≠ none) →
      (xs.map (·.publicKey)).Nodup →
      (∀ p ∈ xs, ∀ q ∈ s.peers, q.publicKey ≠ p.publicKey) → ∀ check : Bool,
      (xs.foldl (fun s p => s.append p check) s).Agrees ∧
        (xs.foldl (fun s p => s.append p check) s).peers = s.peers ++ xs := by
  induction xs with
  | nil => exact fun h _ _ _ _ => ⟨h, by simp⟩
  | cons p xs ih =>
    intro s h hkeys hnodup hnew check
    obtain ⟨key, hkey⟩ := Option.ne_none_iff_exists'.mp (hkeys p mem_cons_self)
    have hfree : ∀ x ∈ s.arr, (s.data x).publicKey ≠ key := by
      intro x hx heq
      apply hnew p mem_cons_self _ (mem_map_of_mem hx)
      rw [h.key x hx, hkey, heq]
    obtain ⟨hagrees, hpeers⟩ := h.append_spec hkey (fun _ : check = false => hfree)
    have hothers : others key s.peers = s.peers := h.others_eq_self (fun x hx => hx) hfree
    rw [hothers] at hpeers
    obtain ⟨hp, hnodup⟩ := nodup_cons.mp hnodup
    rw [foldl_cons]
    have hrest := ih hagrees (fun q hq => hkeys q (mem_cons_of_mem _ hq)) hnodup (by
      intro q hq r hr
      rw [hpeers] at hr
      rcases mem_append.mp hr with hr | hr
      · exact hnew q (mem_cons_of_mem _ hq) r hr
      · rw [mem_singleton.mp hr]
        intro heq
        exact hp (mem_map.mpr ⟨q, hq, heq.symm⟩)) check
    refine ⟨hrest.1, ?_⟩
    rw [hrest.2, hpeers, append_assoc, singleton_append]

theorem Agrees.duplicate (h : s.Agrees) : s.duplicate.Agrees ∧ s.duplicate.peers = s.peers := by
  have hkeys : ∀ p ∈ s.peers, p.publicKey ≠ none := by
    intro p hp
    obtain ⟨x, hx, rfl⟩ := mem_map.mp hp
    simp [h.key x hx]
  have hall := agrees_init.append_all hkeys h.distinct (by simp [peers, init]) false
  exact hall

/-! ## Truthful peers -/

/-- A truthful peer with a public key, whose flag is not left over from a preshared key -/
structure Good (env : WireguardEnv) (p : WireguardPeer) : Prop where
  truthful : p.Truthful env
  fresh : p.Fresh
  key : p.publicKey ≠ none

variable {env : WireguardEnv} {p : WireguardPeer} {var : DbusPeer} {ips : List Bytes}

theorem Good.applySome {α : Type} {f : α → WireguardPeer → WireguardPeer} (hp : Good env p)
    (hf : ∀ a p, Good env p → Good env (f a p)) (value : Option α) :
    Good env (applySome value f p) := by
  cases value with
  | none => exact hp
  | some a => exact hf a p hp

theorem Good.setPresharedKey (henv : env.Lawful) (hp : Good env p) (k : Bytes) :
    Good env (p.setPresharedKey env (some k) true) where
  truthful := hp.truthful.setPresharedKey henv _ _
  fresh := by
    cases hk : env.normalizeKey k <;>
      simp [WireguardPeer.setPresharedKey, hk, WireguardPeer.Fresh]
  key := by
    cases hk : env.normalizeKey k <;> simp [WireguardPeer.setPresharedKey, hk, hp.key]

theorem Good.setEndpoint (hp : Good env p) (endpoint : Option Bytes) (allow : Bool) :
    Good env (p.setEndpoint env endpoint allow) := by
  have hset : ∀ e, Good env { p with endpoint := e } := fun e =>
    ⟨{ hp.truthful with }, hp.fresh, hp.key⟩
  cases endpoint with
  | none => exact hset none
  | some text =>
    unfold WireguardPeer.setEndpoint
    simp only
    split
    · exact hset _
    · exact hp

theorem good_fromDbusFields (henv : env.Lawful) (hkey : env.normalizeKey key ≠ none)
    : Good env (fromDbusFields env key var) := by
  have hnew : Good env (WireguardPeer.setPublicKey env {} (some key) true) := by
    obtain ⟨k, hk⟩ := Option.ne_none_iff_exists'.mp hkey
    refine ⟨WireguardPeer.truthful_new.setPublicKey henv _ _, ?_, ?_⟩
    · simp [WireguardPeer.setPublicKey, hk, WireguardPeer.Fresh]
    · simp [WireguardPeer.setPublicKey, hk]
  have hendpoint := hnew.applySome
    (fun text p hp => hp.setEndpoint (some text) false) var.endpoint
  have hpsk := hendpoint.applySome (fun k p hp => hp.setPresharedKey henv k) var.presharedKey
  have hflags := hpsk.applySome (f := fun flags peer => { peer with presharedKeyFlags := flags })
    (fun _ p hp => ⟨{ hp.truthful with }, hp.fresh, hp.key⟩) var.presharedKeyFlags
  exact hflags.applySome
    (f := fun keepalive peer => { peer with persistentKeepalive := UInt16.ofNat keepalive })
    (fun _ p hp => ⟨{ hp.truthful with }, hp.fresh, hp.key⟩) var.persistentKeepalive

theorem Good.fromDbusAllowedIps (henv : env.Lawful) :
    ∀ {p q : WireguardPeer}, Good env p → fromDbusAllowedIps env strict ips p = some q →
      Good env q := by
  induction ips with
  | nil =>
    intro p q hp h
    cases h
    exact hp
  | cons ip ips ih =>
    intro p q hp h
    have hgood : Good env (p.appendAllowedIp env ip false).1 := by
      refine ⟨hp.truthful.appendAllowedIp henv _ _, ?_, ?_⟩
      · unfold WireguardPeer.appendAllowedIp
        split <;> exact hp.fresh
      · unfold WireguardPeer.appendAllowedIp
        split <;> exact hp.key
    unfold WireguardPeers.fromDbusAllowedIps at h
    split at h
    case h_1 heq =>
      rw [heq] at hgood
      exact ih hgood h
    case h_2 heq =>
      rw [heq] at hgood
      split at h
      · cases h
      · exact ih hgood h

theorem good_fromDbusPeer (henv : env.Lawful) (h : fromDbusPeer env strict var = .append peer)
    : Good env peer := by
  unfold fromDbusPeer at h
  split at h
  case h_1 => split at h <;> cases h
  case h_2 key _ =>
    split at h
    case isTrue => split at h <;> cases h
    case isFalse hkey =>
      split at h
      · cases h
      · split at h
        · cases h
        case h_2 peer' hips =>
          split at h
          · cases h
          · cases h
            exact (good_fromDbusFields henv hkey).fromDbusAllowedIps henv hips

/-! ## The round trip -/

/-- `compare_fcn_peers()` -/
def comparePeers (a b : WireguardPeers) : Bool :=
  a.peers.length == b.peers.length &&
    (List.range a.peers.length).all fun i => (a.peers.getD i {}).cmpEqual (b.peers.getD i {})

theorem comparePeers_of_eq {t : WireguardPeers} (h : s.peers = t.peers) :
    s.comparePeers t = true := by
  simp [comparePeers, h, WireguardPeer.cmpEqual]

theorem fromDbusAllowedIps_of_normalized :
    ∀ {p : WireguardPeer}, (∀ ip ∈ ips, env.normalizeIp ip = some ip) →
      fromDbusAllowedIps env strict ips p = some { p with allowedIps := p.allowedIps ++ ips } := by
  induction ips with
  | nil => simp [fromDbusAllowedIps]
  | cons ip ips ih =>
    intro p h
    have hip := h ip mem_cons_self
    simp only [fromDbusAllowedIps, WireguardPeer.appendAllowedIp, hip]
    rw [ih fun ip' hip' => h ip' (mem_cons_of_mem _ hip')]
    simp

/-- A valid peer is read back from D-Bus. -/
theorem fromDbusPeer_toDbusPeer (hp : Good env p) (hvalid : p.isValid env = true) :
    fromDbusPeer env strict (toDbusPeer p) = .append p := by
  have hvalid' := hvalid
  simp only [WireguardPeer.isValid, Bool.and_eq_true, all_eq_true, bne_iff_ne] at hvalid'
  obtain ⟨⟨⟨⟨-, hpkv⟩, -⟩, hend⟩, hips⟩ := hvalid'
  obtain ⟨key, hkey⟩ := Option.ne_none_iff_exists'.mp hp.key
  have hnorm : env.normalizeKey key = some key := by
    simpa [hpkv] using hp.truthful.publicKey key hkey
  have htexts : (p.allowedIps.map fun entry => (WireguardPeer.getAllowedIp entry).2) =
      p.allowedIps := by
    conv_rhs => rw [← map_id p.allowedIps]
    apply map_congr_left
    intro entry hentry
    simp [WireguardPeer.getAllowedIp, hips entry hentry]
  have hall : ((toDbusPeer p).allowedIps.getD []) = p.allowedIps := by
    simp only [toDbusPeer, htexts]
    by_cases hnil : p.allowedIps = [] <;> simp [hnil]
  have hnormIps : ∀ ip ∈ p.allowedIps, env.normalizeIp ip = some ip := fun ip hip =>
    (hp.truthful.allowedIps ip hip).resolve_left (hips ip hip)
  have hfields : fromDbusFields env key (toDbusPeer p) = { p with allowedIps := [] } := by
    have hpsk := hp.truthful.presharedKey
    have hfresh := hp.fresh
    obtain ⟨pk, pkv, psk, pskv, flags, endpoint, keepalive, ips⟩ := p
    simp only at hkey hpkv hend hpsk hfresh
    subst hkey hpkv
    have hkeepalive : applySome (if keepalive ≠ 0 then some keepalive.toNat else none)
        (fun keepalive peer => { peer with persistentKeepalive := UInt16.ofNat keepalive })
        ({ publicKey := some key, publicKeyValid := true, presharedKey := psk,
           presharedKeyValid := pskv, presharedKeyFlags := flags, endpoint := endpoint } :
          WireguardPeer) = ⟨some key, true, psk, pskv, flags, endpoint, keepalive, []⟩ := by
      by_cases hk : keepalive = 0 <;> simp [applySome, hk]
    have hflags : applySome (if flags ≠ 4 then some flags else none)
        (fun flags peer => { peer with presharedKeyFlags := flags })
        ({ publicKey := some key, publicKeyValid := true, presharedKey := psk,
           presharedKeyValid := pskv, endpoint := endpoint } : WireguardPeer) =
        { publicKey := some key, publicKeyValid := true, presharedKey := psk,
          presharedKeyValid := pskv, presharedKeyFlags := flags, endpoint := endpoint } := by
      by_cases hf : flags = 4 <;> simp [applySome, hf]
    have hset : applySome psk (fun psk peer => peer.setPresharedKey env (some psk) true)
        ({ publicKey := some key, publicKeyValid := true, endpoint := endpoint } : WireguardPeer) =
        { publicKey := some key, publicKeyValid := true, presharedKey := psk,
          presharedKeyValid := pskv, endpoint := endpoint } := by
      cases psk with
      | none =>
        have hpskv : pskv = false := hfresh rfl
        simp [applySome, hpskv]
      | some k =>
        have hk := hpsk k rfl
        cases pskv <;> simp_all [applySome, WireguardPeer.setPresharedKey]
    have hendpoint : applySome endpoint (fun text peer => peer.setEndpoint env (some text) false)
        ({ publicKey := some key, publicKeyValid := true } : WireguardPeer) =
        { publicKey := some key, publicKeyValid := true, endpoint := endpoint } := by
      cases endpoint with
      | none => rfl
      | some text =>
        have htext : env.endpointHost text = true := hend
        simp [applySome, WireguardPeer.setEndpoint, htext]
    simp only [fromDbusFields, toDbusPeer, WireguardPeer.setPublicKey, hnorm, hendpoint, hset,
      hflags, hkeepalive]
  have hhost : ((toDbusPeer p).endpoint.any fun text => !env.endpointHost text) = false := by
    cases he : p.endpoint with
    | none => simp [toDbusPeer, he]
    | some text =>
      rw [he] at hend
      have htext : env.endpointHost text = true := hend
      simp [toDbusPeer, he, htext]
  have hkey' : (toDbusPeer p).publicKey = some key := hkey
  simp only [fromDbusPeer, hkey', hnorm, reduceCtorEq, if_false, hhost, Bool.and_false,
    Bool.false_eq_true, hall, hfields, fromDbusAllowedIps_of_normalized hnormIps, nil_append,
    hvalid, Bool.not_true]

theorem fromDbus_append_all {vars : List DbusPeer}
    (h : List.Forall₂ (fun var p => fromDbusPeer env strict var = .append p) vars xs) :
    ∀ s : WireguardPeers,
      fromDbus env strict vars s = xs.foldl (fun s p => s.append p true) s := by
  induction h with
  | nil => exact fun _ => rfl
  | cons hvar _ ih =>
    intro s
    simp only [fromDbus, hvar, foldl_cons]
    exact ih _

theorem roundTrip (h : s.Holds (Good env)) (hvalid : ∀ p ∈ s.peers, p.isValid env = true) :
    s.comparePeers (fromDbus env strict s.toDbus init) = true := by
  have hkeys : ∀ p ∈ s.peers, p.publicKey ≠ none := fun p hp => (h.2 p hp).key
  have hfilter : s.peers.filter (·.publicKey ≠ none) = s.peers :=
    filter_eq_self.mpr fun p hp => by simpa using hkeys p hp
  have hvars : List.Forall₂ (fun var p => fromDbusPeer env strict var = .append p) s.toDbus
      s.peers := by
    rw [toDbus, hfilter, forall₂_map_left_iff, forall₂_same]
    exact fun p hp => fromDbusPeer_toDbusPeer (h.2 p hp) (hvalid p hp)
  apply comparePeers_of_eq
  rw [fromDbus_append_all hvars,
    (agrees_init.append_all hkeys h.1.distinct (by simp [peers, init]) true).2]
  rfl

/-! ## Asking for secrets -/

theorem secretName_injective : Function.Injective secretName := by
  intro x y h
  exact append_cancel_left (append_cancel_right h)

theorem mem_needSecrets_iff (h : s.Holds (Good env)) (hp : p ∈ s.peers)
    (hkey : p.publicKey = some key) :
    secretName key ∈ s.needSecrets ↔ p.presharedKeyFlags &&& 4 = 0 ∧
      (env.normalizeKey key).isSome ∧
      ¬∃ k, p.presharedKey = some k ∧ (env.normalizeKey k).isSome := by
  have hpub : p.publicKeyValid = true ↔ (env.normalizeKey key).isSome := by
    rw [(h.2 p hp).truthful.publicKey key hkey]
    cases p.publicKeyValid <;> simp
  have hpsk : p.presharedKeyValid = true ↔
      ∃ k, p.presharedKey = some k ∧ (env.normalizeKey k).isSome := by
    cases hk : p.presharedKey with
    | none => simp [(h.2 p hp).fresh hk]
    | some k =>
      have hk := (h.2 p hp).truthful.presharedKey k hk
      cases hv : p.presharedKeyValid <;> simp [hk, hv]
  rw [← hpub, ← hpsk]
  have hsame : ∀ q ∈ s.peers, q.publicKey = some key → q = p := fun q hq hqkey =>
    inj_on_of_nodup_map h.1.distinct hq hp (hqkey.trans hkey.symm)
  simp only [needSecrets, mem_map, mem_filter, Bool.and_eq_true, decide_eq_true_eq,
    Bool.not_eq_true']
  constructor
  · rintro ⟨q, ⟨hq, ⟨hflags, hqpsk⟩, hqpub⟩, hname⟩
    obtain ⟨k, hqkey⟩ := Option.ne_none_iff_exists'.mp (h.2 q hq).key
    rw [hqkey] at hname
    have hk : k = key := secretName_injective hname
    rw [hk] at hqkey
    rw [hsame q hq hqkey] at hflags hqpsk hqpub
    exact ⟨hflags, hqpub, by simp [hqpsk]⟩
  · rintro ⟨hflags, hpubv, hpskv⟩
    exact ⟨p, ⟨hp, ⟨hflags, by simpa using hpskv⟩, hpubv⟩, by rw [hkey]; rfl⟩

/-! ## Runs -/

/-- The operations on the peers; `duplicate` goes on with the copy. -/
inductive Op where
  | setPeer (peer : WireguardPeer) (idx : ℕ)
  | appendPeer (peer : WireguardPeer)
  | removePeer (idx : ℕ)
  | clearPeers
  | clearSecrets (filter : Bytes → ℕ → Bool)
  | updateSecrets (vars : List DbusPeer)
  | fromDbus (strict : Bool) (vars : List DbusPeer)
  | duplicate

def step (env : WireguardEnv) (s : WireguardPeers) : Op → WireguardPeers
  | .setPeer peer idx => s.setPeer peer idx
  | .appendPeer peer => s.appendPeer peer
  | .removePeer idx => s.removePeer idx
  | .clearPeers => s.clearPeers
  | .clearSecrets filter => s.clearSecrets filter
  | .updateSecrets vars => s.updateSecrets env vars
  | .fromDbus strict vars => WireguardPeers.fromDbus env strict vars s
  | .duplicate => s.duplicate

/-- A given peer can be made, has a public key and carries no flag of a cleared preshared key, and
no valid preshared key is cleared. -/
def Meets (env : WireguardEnv) (s : WireguardPeers) : Op → Prop
  | .setPeer peer _ => peer.Built env ∧ peer.publicKey ≠ none ∧ peer.Fresh
  | .appendPeer peer => peer.Built env ∧ peer.publicKey ≠ none ∧ peer.Fresh
  | .clearSecrets filter => ∀ p ∈ s.peers, p.presharedKey ≠ none →
      filter (secretName (p.publicKey.getD [])) p.presharedKeyFlags = true →
      p.presharedKeyValid = false
  | _ => True

/-- A state of a run whose steps all meet the condition -/
def Reached (env : WireguardEnv) (s : WireguardPeers) : Prop :=
  ∃ ops : List Op, Along (step env) (Meets env) init ops ∧ ops.foldl (step env) init = s

/-- The peers are an ordered map, and their validity is truthful. -/
structure OrderedMap (env : WireguardEnv) (s : WireguardPeers) : Prop where
  agrees : s.Agrees
  distinct : (s.peers.map (·.publicKey)).Nodup
  appendPeer : ∀ peer key, peer.publicKey = some key →
    (s.appendPeer peer).peers = others key s.peers ++ [peer]
  setPeer : ∀ peer old idx, peer.publicKey ≠ none → s.peers[idx]? = some old →
    (s.setPeer peer idx).peers = setAt old peer s.peers
  compare : ∀ t, Reached env t → ∀ p ∈ s.peers, ∀ q ∈ t.peers, p.SameGetters q →
    p.cmpEqual q = true
  roundTrip : ∀ strict, (∀ p ∈ s.peers, p.isValid env = true) →
    s.comparePeers (WireguardPeers.fromDbus env strict s.toDbus init) = true
  needSecrets : ∀ p ∈ s.peers, ∀ key, p.publicKey = some key →
    (secretName key ∈ s.needSecrets ↔ p.presharedKeyFlags &&& 4 = 0 ∧
      (env.normalizeKey key).isSome ∧
      ¬∃ k, p.presharedKey = some k ∧ (env.normalizeKey k).isSome)

theorem Holds.step (henv : env.Lawful) (h : s.Holds (Good env)) {op : Op}
    (hmeets : Meets env s op) : (step env s op).Holds (Good env) := by
  cases op with
  | setPeer peer idx =>
    obtain ⟨hbuilt, hne, hfresh⟩ := hmeets
    obtain ⟨key, hkey⟩ := Option.ne_none_iff_exists'.mp hne
    exact h.setPeer hkey ⟨hbuilt.truthful henv, hfresh, hne⟩ idx
  | appendPeer peer =>
    obtain ⟨hbuilt, hne, hfresh⟩ := hmeets
    obtain ⟨key, hkey⟩ := Option.ne_none_iff_exists'.mp hne
    exact h.append hkey ⟨hbuilt.truthful henv, hfresh, hne⟩
  | removePeer idx => exact h.removePeer idx
  | clearPeers => exact h.clearPeers
  | clearSecrets filter =>
    -- the peers that are still to be cleared keep their condition
    have hboth : s.Holds fun p => Good env p ∧ (p.presharedKey ≠ none →
        filter (secretName (p.publicKey.getD [])) p.presharedKeyFlags = true →
        p.presharedKeyValid = false) :=
      ⟨h.1, fun p hp => ⟨h.2 p hp, hmeets p hp⟩⟩
    have hcleared := @Holds.clearSecrets _ _ hboth filter (by
      rintro p ⟨hp, hvalid⟩ hne hfilter
      refine ⟨⟨hp.truthful.newClone false, fun _ => hvalid hne hfilter, hp.key⟩, ?_⟩
      exact fun hnone => absurd rfl hnone)
    exact ⟨hcleared.1, fun p hp => (hcleared.2 p hp).1⟩
  | updateSecrets vars =>
    apply h.updateSecrets
    · intro p k hp
      have hclone := hp.truthful.newClone false
      constructor
      · exact hclone.setPresharedKey henv _ _
      · cases hk : env.normalizeKey k <;>
          simp [WireguardPeer.setPresharedKey, hk, WireguardPeer.Fresh]
      · cases hk : env.normalizeKey k <;>
          simp [WireguardPeer.setPresharedKey, WireguardPeer.newClone, hk, hp.key]
    · intro p k
      cases hk : env.normalizeKey k <;>
        simp [WireguardPeer.setPresharedKey, WireguardPeer.newClone, hk]
  | fromDbus strict vars =>
    apply h.fromDbus
    intro var peer hpeer
    have hgood := good_fromDbusPeer henv hpeer
    exact ⟨hgood, hgood.key⟩
  | duplicate =>
    obtain ⟨hagrees, hpeers⟩ := h.1.duplicate
    refine ⟨hagrees, fun p hp => h.2 p ?_⟩
    rw [← hpeers]
    exact hp

theorem Reached.holds (henv : env.Lawful) (h : Reached env s) : s.Holds (Good env) := by
  obtain ⟨ops, hmeets, rfl⟩ := h
  apply hmeets.foldl fun s op h => h.step henv
  exact ⟨agrees_init, fun p hp => by simp [peers, init] at hp⟩

/-- In every run that meets the condition, every state is an ordered map of truthful peers. -/
theorem reached_orderedMap (henv : env.Lawful) (h : Reached env s) : s.OrderedMap env where
  agrees := (h.holds henv).1
  distinct := (h.holds henv).1.distinct
  appendPeer := fun peer key hkey =>
    ((h.holds henv).1.append_spec hkey (fun h : true = false => by cases h)).2
  setPeer := by
    intro peer old idx hne hold
    obtain ⟨key, hkey⟩ := Option.ne_none_iff_exists'.mp hne
    rw [peers, List.getElem?_map, Option.map_eq_some_iff] at hold
    obtain ⟨pd, hidx, rfl⟩ := hold
    have hlt := (List.getElem?_eq_some_iff.mp hidx).1
    rw [WireguardPeers.setPeer, if_pos hlt.le]
    exact ((h.holds henv).1.set_some hkey hidx (fun h => by cases h)).2
  compare := by
    intro t ht p hp q hq hsame
    have hgoodp := (h.holds henv).2 p hp
    have hgoodq := (ht.holds henv).2 q hq
    exact WireguardPeer.cmpEqual_of_sameGetters hgoodp.truthful hgoodq.truthful hgoodp.fresh
      hgoodq.fresh hgoodp.key hsame
  roundTrip := fun strict hvalid => roundTrip (h.holds henv) hvalid
  needSecrets := fun p hp key hkey => mem_needSecrets_iff (h.holds henv) hp hkey

def zeroKey : Bytes := ascii "AAAAAAAAAAAAAAAAAAAAAAAAAAAAAAAAAAAAAAAAAAA="

def otherKey : Bytes := ascii "BBBBBBBBBBBBBBBBBBBBBBBBBBBBBBBBBBBBBBBBBBA="

def anyWireguardEnv : WireguardEnv where
  normalizeKey := fun k => if k = zeroKey ∨ k = otherKey then some k else none
  endpointHost := fun text => text ≠ []
  normalizeIp := fun ip => if ip = ascii "10.0.0.0/8" then some ip else none

theorem anyWireguardEnv_lawful : anyWireguardEnv.Lawful where
  key := by
    intro k k' h
    simp only [anyWireguardEnv, Option.ite_none_right_eq_some] at h ⊢
    obtain ⟨hk, heq⟩ := h
    cases heq
    exact ⟨hk, trivial⟩
  ip := by
    intro a a' h
    simp only [anyWireguardEnv, Option.ite_none_right_eq_some] at h ⊢
    obtain ⟨ha, heq⟩ := h
    cases heq
    exact ⟨⟨ha, trivial⟩, by rw [ha]; decide⟩

def exampleEdits : List WireguardPeer.Edit :=
  [.setPublicKey (some zeroKey) false, .setPresharedKeyFlags 0,
    .setPresharedKey (some zeroKey) false]

def examplePeer : WireguardPeer := exampleEdits.foldl (WireguardPeer.edit anyWireguardEnv) {}

def otherPeer : WireguardPeer :=
  [.setPublicKey (some otherKey) false, .setPresharedKey (some (ascii "x")) true].foldl
    (WireguardPeer.edit anyWireguardEnv) {}

/-- The second peer is replaced by the first one and appended again, and only its preshared key,
which is not valid, is cleared. -/
def exampleOps : List Op :=
  [.appendPeer examplePeer, .appendPeer otherPeer, .setPeer examplePeer 1, .appendPeer otherPeer,
    .clearSecrets fun name _ => name = secretName otherKey, .removePeer 0]

theorem reached_orderedMap_exampleOps :
    (exampleOps.foldl (step anyWireguardEnv) init).OrderedMap anyWireguardEnv := by
  have hexample : examplePeer.Built anyWireguardEnv ∧ examplePeer.publicKey ≠ none ∧
      examplePeer.Fresh := ⟨⟨exampleEdits, rfl⟩, by decide, fun h => absurd h (by decide)⟩
  have hother : otherPeer.Built anyWireguardEnv ∧ otherPeer.publicKey ≠ none ∧ otherPeer.Fresh :=
    ⟨⟨_, rfl⟩, by decide, fun h => absurd h (by decide)⟩
  apply reached_orderedMap anyWireguardEnv_lawful
  refine ⟨exampleOps, ⟨hexample, hother, hexample, hother, ?_, trivial, trivial⟩, rfl⟩
  unfold Meets
  decide

/-- The preshared key that was cleared is required, but nobody is asked for it. -/
theorem clearSecrets_not_asked :
    ¬([Op.appendPeer examplePeer, .clearSecrets fun _ _ => true].foldl (step anyWireguardEnv)
      init).OrderedMap anyWireguardEnv := by
  intro h
  have hask := (h.needSecrets (examplePeer.newClone false) (by decide) zeroKey (by decide)).mpr
    ⟨by decide, by decide, by rintro ⟨k, hk, -⟩; cases hk⟩
  revert hask
  decide

end WireguardPeers

end NetworkManager.Settings
