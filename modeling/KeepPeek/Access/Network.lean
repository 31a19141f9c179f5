import KeepPeek.Lib.Text
import Mathlib.Tactic.Common

/-! The network access policy: which clients count as local.

The address of a connection is read off the socket; behind a trusted proxy the
client's address is the one the proxies wrote into `X-Forwarded-For`. A client
writes that header too, so the policy believes only what the proxies added: it
walks the chain from its right end and stops at the first address that is no
trusted proxy. -/

namespace KeepPeek.Access

variable {headers : List (Text × Text)}

inductive IpAddr where
  | v4 (bits : BitVec 32)
  | v6 (bits : BitVec 128)
  deriving DecidableEq, Repr

def toIpv4Mapped (bits : BitVec 128) : Option (BitVec 32) :=
  if bits >>> 32 = 0xffff#128 then some (bits.setWidth 32) else none

def normalizeAddress : IpAddr → IpAddr
  | .v6 bits => (toIpv4Mapped bits).elim (.v6 bits) .v4
  | address => address

/-- A network of the `ipnet` library, by what its `contains` answers. -/
structure IpNet where
  contains : IpAddr → Bool

def maxForwardingHops : Nat := 16

/-- `Ipv4Addr` and `Ipv6Addr` in their text form: what the standard library's
parser makes of a text. -/
abbrev AddressParser := Text → Option IpAddr

def isForwardedFor (name : Text) : Bool :=
  Text.eqIgnoreAsciiCase name "X-Forwarded-For".toList

def isForwardingHeader (name : Text) : Bool :=
  ["Forwarded", "X-Forwarded-Host", "X-Forwarded-Proto", "X-Real-IP"].any fun forwarding =>
    Text.eqIgnoreAsciiCase name forwarding.toList

def parseForwardedChain (parse : AddressParser) (value : Text) : Option (List IpAddr) :=
  let values := value.splitOn ','
  if values.isEmpty || maxForwardingHops < values.length then none
  else values.mapM fun value => (parse (Text.trim value)).map normalizeAddress

structure Forwarding where
  client : Option Text
  count : Nat
  other : Bool

def Forwarding.note (seen : Forwarding) (header : Text × Text) : Forwarding :=
  if isForwardedFor header.1 then
    { seen with client := some header.2, count := seen.count + 1 }
  else if isForwardingHeader header.1 then { seen with other := true }
  else seen

def forwarding (headers : List (Text × Text)) : Forwarding :=
  headers.foldl Forwarding.note ⟨none, 0, false⟩

inductive ClientClassificationReason where
  | directLocal
  | directRemote
  | trustedProxyLocal
  | trustedProxyRemote
  | untrustedForwarding
  | missingForwardedClient
  | malformedForwardedClient
  deriving DecidableEq, Repr

structure ClientClassification where
  peerAddress : IpAddr
  effectiveAddress : IpAddr
  isLocal : Bool
  reason : ClientClassificationReason
  deriving DecidableEq, Repr

structure NetworkAccessPolicy where
  localNetworks : List IpNet
  trustedProxies : List IpNet

namespace NetworkAccessPolicy

def contains (networks : List IpNet) (address : IpAddr) : Bool :=
  networks.any fun network => network.contains address

def trusts (policy : NetworkAccessPolicy) (address : IpAddr) : Bool :=
  contains policy.trustedProxies address

/-- The walk over the chain, which comes here with its right end first. -/
def walk (policy : NetworkAccessPolicy) : IpAddr → List IpAddr → IpAddr
  | effective, [] => effective
  | effective, address :: rest =>
    if policy.trusts effective then policy.walk address rest else effective

def refused (peer : IpAddr) (reason : ClientClassificationReason) : ClientClassification :=
  ⟨peer, peer, false, reason⟩

def direct (policy : NetworkAccessPolicy) (peer : IpAddr) : ClientClassification :=
  let isLocal := contains policy.localNetworks peer
  ⟨peer, peer, isLocal, if isLocal then .directLocal else .directRemote⟩

def proxied (policy : NetworkAccessPolicy) (peer : IpAddr) (chain : List IpAddr) :
    ClientClassification :=
  let effective := policy.walk peer chain.reverse
  let isLocal := contains policy.localNetworks effective
  ⟨peer, effective, isLocal, if isLocal then .trustedProxyLocal else .trustedProxyRemote⟩

def classify (policy : NetworkAccessPolicy) (parse : AddressParser) (peerAddress : IpAddr)
    (headers : List (Text × Text)) : ClientClassification :=
  let peer := normalizeAddress peerAddress
  let seen := forwarding headers
  if (seen.count != 0 || seen.other) && !policy.trusts peer then
    refused peer .untrustedForwarding
  else if policy.trusts peer then
    if seen.count = 0 then refused peer .missingForwardedClient
    else if seen.count != 1 || seen.other then refused peer .malformedForwardedClient
    else
      match seen.client.bind (parseForwardedChain parse) with
      | none => refused peer .malformedForwardedClient
      | some chain => policy.proxied peer chain
  else policy.direct peer

end NetworkAccessPolicy

open NetworkAccessPolicy

/-! What the scan finds depends on the names of the headers, but for the text of
the last `X-Forwarded-For`. -/

theorem foldl_note_count (headers : List (Text × Text)) :
    ∀ seen : Forwarding, (headers.foldl Forwarding.note seen).count =
      seen.count + (headers.map Prod.fst).countP isForwardedFor := by
  induction headers with
  | nil => simp
  | cons header rest ih =>
    intro seen
    rw [List.foldl_cons, ih, List.map_cons, List.countP_cons]
    unfold Forwarding.note
    by_cases named : isForwardedFor header.1
    · simp only [named, if_true]
      omega
    · by_cases other : isForwardingHeader header.1 <;> simp [named, other]

theorem foldl_note_other (headers : List (Text × Text)) :
    ∀ seen : Forwarding, (headers.foldl Forwarding.note seen).other =
      (seen.other || (headers.map Prod.fst).any fun name => !isForwardedFor name &&
      isForwardingHeader name) := by
  induction headers with
  | nil => simp
  | cons header rest ih =>
    intro seen
    rw [List.foldl_cons, ih, List.map_cons, List.any_cons]
    unfold Forwarding.note
    by_cases named : isForwardedFor header.1
    · simp [named]
    · by_cases other : isForwardingHeader header.1 <;> simp [named, other]

theorem foldl_note_client (absent : (headers.map Prod.fst).countP isForwardedFor = 0) :
    ∀ seen : Forwarding, (headers.foldl Forwarding.note seen).client = seen.client := by
  induction headers with
  | nil => simp
  | cons header rest ih =>
    intro seen
    rw [List.map_cons, List.countP_cons] at absent
    have named : isForwardedFor header.1 = false := by
      cases found : isForwardedFor header.1 with
      | false => rfl
      | true =>
        rw [found] at absent
        simp at absent
    rw [List.foldl_cons, ih (by omega)]
    unfold Forwarding.note
    by_cases other : isForwardingHeader header.1 <;> simp [named, other]

theorem forwarding_count (headers : List (Text × Text)) :
    (forwarding headers).count = (headers.map Prod.fst).countP isForwardedFor := by
  rw [forwarding, foldl_note_count, Nat.zero_add]

theorem forwarding_other (headers : List (Text × Text)) :
    (forwarding headers).other = (headers.map Prod.fst).any fun name =>
      !isForwardedFor name && isForwardingHeader name := by
  rw [forwarding, foldl_note_other, Bool.false_or]

/-- The only `X-Forwarded-For` is the one whose text the scan returns. -/
theorem forwarding_client {before after : List (Text × Text)} {name value : Text}
    (named : isForwardedFor name)
    (once : (forwarding (before ++ (name, value) :: after)).count = 1) :
    (forwarding (before ++ (name, value) :: after)).client = some value := by
  rw [forwarding_count, List.map_append, List.countP_append, List.map_cons,
    List.countP_cons] at once
  simp only [named, if_true] at once
  rw [forwarding, List.foldl_append, List.foldl_cons, foldl_note_client (by omega)]
  simp [Forwarding.note, named]

/-- A header that tells, or may tell, on whose behalf a request is made. -/
def forwards (name : Text) : Bool :=
  isForwardedFor name || isForwardingHeader name

theorem forwarding_of_absent (absent : ∀ header ∈ headers, forwards header.1 = false) :
    (forwarding headers).count = 0 ∧ (forwarding headers).other = false := by
  simp only [forwards, Bool.or_eq_false_iff] at absent
  refine ⟨?_, ?_⟩
  · rw [forwarding_count, List.countP_map, List.countP_eq_zero]
    intro header mem
    simp [(absent header mem).1]
  · rw [forwarding_other, List.any_map, List.any_eq_false]
    intro header mem
    simp [(absent header mem).2]

theorem forwarding_of_present (present : ∃ header ∈ headers, forwards header.1 = true) :
    ((forwarding headers).count != 0 || (forwarding headers).other) = true := by
  rcases present with ⟨header, mem, sent⟩
  rw [Bool.or_eq_true]
  by_cases named : isForwardedFor header.1
  · left
    have positive : 0 < (headers.map Prod.fst).countP isForwardedFor :=
      List.countP_pos_iff.mpr ⟨header.1, List.mem_map_of_mem mem, named⟩
    rw [forwarding_count]
    simpa using Nat.pos_iff_ne_zero.mp positive
  · right
    rw [forwarding_other, List.any_map, List.any_eq_true]
    refine ⟨header, mem, ?_⟩
    simp only [forwards, Bool.or_eq_true] at sent
    simpa [named] using sent

/-! The value of `X-Forwarded-For`, seen from an element of its chain: what the
client sent, if anything, a comma, and the text from that element on. -/

def forwardedValue : Option Text → Text → Text
  | none, right => right
  | some left, right => left ++ ',' :: right

theorem splitOn_forwardedValue (left : Option Text) (right : Text) :
    (forwardedValue left right).splitOn ',' =
      (left.elim [] fun left => left.splitOn ',') ++ right.splitOn ',' := by
  cases left with
  | none => rfl
  | some left => exact List.splitOn_append_cons_self left right

theorem parseForwardedChain_forwardedValue {parse : AddressParser} {left : Option Text}
    {right : Text} {chain addresses : List IpAddr}
    (parsed : parseForwardedChain parse right = some addresses)
    (whole : parseForwardedChain parse (forwardedValue left right) = some chain) :
    ∃ earlier, chain = earlier ++ addresses := by
  unfold parseForwardedChain at parsed whole
  dsimp only at parsed whole
  rw [splitOn_forwardedValue] at whole
  split at parsed
  · cases parsed
  split at whole
  · cases whole
  rw [List.mapM_append, parsed] at whole
  simp only [Option.bind_eq_bind, Option.bind_eq_some_iff] at whole
  rcases whole with ⟨earlier, _, _, found, joined⟩
  cases found
  exact ⟨earlier, (Option.some.inj joined).symm⟩

namespace NetworkAccessPolicy

variable {p : NetworkAccessPolicy}

theorem walk_append (p : NetworkAccessPolicy) (client : IpAddr) (rest : List IpAddr) :
    ∀ (proxies : List IpAddr) (peer : IpAddr), p.trusts peer → (∀ proxy ∈ proxies, p.trusts proxy) →
      p.walk peer (proxies ++ client :: rest) = p.walk client rest := by
  intro proxies
  induction proxies with
  | nil =>
    intro peer trusted _
    simp [walk, trusted]
  | cons proxy proxies ih =>
    intro peer trusted through
    rw [List.cons_append, walk, if_pos trusted]
    exact ih proxy (through proxy (by simp)) fun other mem => through other (by simp [mem])

theorem walk_of_not_trusts {client : IpAddr} (untrusted : p.trusts client = false)
    (rest : List IpAddr) : p.walk client rest = client := by
  cases rest <;> simp [walk, untrusted]

/-- What stands left of the first address that is no trusted proxy is not read. -/
theorem proxied_append {peer client : IpAddr} {proxies : List IpAddr} (trusted : p.trusts peer)
    (through : ∀ proxy ∈ proxies, p.trusts proxy) (untrusted : p.trusts client = false)
    (earlier : List IpAddr) :
    p.proxied peer (earlier ++ client :: proxies) = p.proxied peer (client :: proxies) := by
  have walked : ∀ earlier : List IpAddr,
      p.walk peer (earlier ++ client :: proxies).reverse = client := by
    intro earlier
    rw [List.reverse_append, List.reverse_cons, List.append_assoc, List.singleton_append,
      walk_append p client _ _ peer trusted (by simpa using through)]
    exact walk_of_not_trusts untrusted _
  unfold proxied
  rw [walked, ← List.nil_append (client :: proxies), walked]

theorem classify_of_trusts {parse : AddressParser} {peerAddress : IpAddr}
    (trusted : p.trusts (normalizeAddress peerAddress)) {before after : List (Text × Text)}
    {name : Text} (named : isForwardedFor name) (value : Text) :
    p.classify parse peerAddress (before ++ (name, value) :: after) =
      if (forwarding (before ++ (name, []) :: after)).count != 1 ||
          (forwarding (before ++ (name, []) :: after)).other then
        refused (normalizeAddress peerAddress) .malformedForwardedClient
      else
        (parseForwardedChain parse value).elim
          (refused (normalizeAddress peerAddress) .malformedForwardedClient)
          (p.proxied (normalizeAddress peerAddress)) := by
  have names : (before ++ (name, value) :: after).map Prod.fst =
      (before ++ (name, []) :: after).map Prod.fst := by
    simp
  have count : (forwarding (before ++ (name, value) :: after)).count =
      (forwarding (before ++ (name, []) :: after)).count := by
    rw [forwarding_count, forwarding_count, names]
  have other : (forwarding (before ++ (name, value) :: after)).other =
      (forwarding (before ++ (name, []) :: after)).other := by
    rw [forwarding_other, forwarding_other, names]
  have counted : (forwarding (before ++ (name, []) :: after)).count ≠ 0 := by
    rw [forwarding_count, List.map_append, List.countP_append, List.map_cons, List.countP_cons]
    simp [named]
  unfold classify
  dsimp only
  rw [count, other, trusted, Bool.not_true, Bool.and_false, if_neg Bool.false_ne_true,
    if_pos rfl, if_neg counted]
  split
  · rfl
  rename_i single
  simp only [Bool.or_eq_true, bne_iff_ne, ne_eq, not_or, Decidable.not_not] at single
  rw [forwarding_client named (count.trans single.1), Option.bind_some]
  cases parseForwardedChain parse value <;> rfl

end NetworkAccessPolicy

/-- Forwarding headers make no remote client local: an untrusted peer that sends
one is not local, without one the peer's address decides, and behind a trusted
peer what stands left of the client's own address decides nothing but whether the
chain is well formed. -/
theorem forwarding_never_localizes (policy : NetworkAccessPolicy) (parse : AddressParser)
    (peerAddress : IpAddr) :
    (∀ headers : List (Text × Text), policy.trusts (normalizeAddress peerAddress) = false →
      (∃ header ∈ headers, forwards header.1 = true) →
      (policy.classify parse peerAddress headers).isLocal = false) ∧
    (∀ headers others : List (Text × Text), (∀ header ∈ headers, forwards header.1 = false) →
      (∀ header ∈ others, forwards header.1 = false) →
      policy.classify parse peerAddress headers = policy.classify parse peerAddress others) ∧
    ∀ (before after : List (Text × Text)) (name right : Text) (left replaced : Option Text)
      (client : IpAddr) (proxies : List IpAddr),
      policy.trusts (normalizeAddress peerAddress) →
      isForwardedFor name →
      (parseForwardedChain parse (forwardedValue left right)).isSome →
      parseForwardedChain parse right = some (client :: proxies) →
      policy.trusts client = false →
      (∀ proxy ∈ proxies, policy.trusts proxy) →
      policy.classify parse peerAddress (before ++ (name, forwardedValue replaced right) :: after) =
        policy.classify parse peerAddress (before ++ (name, forwardedValue left right) :: after) ∨
      (policy.classify parse peerAddress
          (before ++ (name, forwardedValue replaced right) :: after)).isLocal = false := by
  refine ⟨?_, ?_, ?_⟩
  · intro headers untrusted present
    unfold classify
    dsimp only
    rw [forwarding_of_present present, untrusted]
    rfl
  · intro headers others absent absentToo
    have seen := forwarding_of_absent absent
    have seenToo := forwarding_of_absent absentToo
    unfold classify
    dsimp only
    rw [seen.1, seen.2, seenToo.1, seenToo.2]
    rfl
  · intro before after name right left replaced client proxies trusted named read readRight
      untrusted through
    rw [classify_of_trusts trusted named, classify_of_trusts trusted named]
    split
    · exact Or.inl rfl
    rcases Option.isSome_iff_exists.mp read with ⟨chain, whole⟩
    rcases parseForwardedChain_forwardedValue readRight whole with ⟨earlier, rfl⟩
    cases again : parseForwardedChain parse (forwardedValue replaced right) with
    | none => exact Or.inr rfl
    | some other =>
      rcases parseForwardedChain_forwardedValue readRight again with ⟨spoofed, rfl⟩
      left
      rw [whole, Option.elim_some, Option.elim_some, proxied_append trusted through untrusted,
        proxied_append trusted through untrusted]

namespace Fixture

def proxy : IpAddr := .v4 0xc000020a#32
def lan : IpAddr := .v4 0xc0a80132#32
def remote : IpAddr := .v4 0xcb007107#32

def policy : NetworkAccessPolicy where
  localNetworks := [⟨fun address => address = lan⟩]
  trustedProxies := [⟨fun address => address = proxy⟩]

def parse (text : Text) : Option IpAddr :=
  if text = "192.0.2.10".toList then some proxy
  else if text = "192.168.1.50".toList then some lan
  else if text = "203.0.113.7".toList then some remote
  else none

end Fixture

open Fixture

/-- A remote client behind a trusted proxy claims an address of the local network. -/
theorem forwarding_never_localizes_spoofed :
    policy.classify parse remote [("Forwarded".toList, [])] =
      ⟨remote, remote, false, .untrustedForwarding⟩ ∧
    (policy.classify parse remote [("Forwarded".toList, [])]).isLocal = false ∧
    policy.classify parse lan [("Host".toList, [])] = policy.classify parse lan [] ∧
    (policy.classify parse proxy [("x-forwarded-for".toList, "192.168.1.50, 203.0.113.7".toList)] =
      policy.classify parse proxy [("x-forwarded-for".toList, " 203.0.113.7".toList)] ∨
    (policy.classify parse proxy
        [("x-forwarded-for".toList, "192.168.1.50, 203.0.113.7".toList)]).isLocal = false) :=
  ⟨by decide +kernel,
    (forwarding_never_localizes policy parse remote).1 _ (by decide +kernel) (by decide +kernel),
    (forwarding_never_localizes policy parse lan).2.1 _ _ (by decide +kernel) (by decide +kernel),
    (forwarding_never_localizes policy parse proxy).2.2 [] []
      "x-forwarded-for".toList " 203.0.113.7".toList none (some "192.168.1.50".toList)
      remote [] (by decide +kernel) (by decide +kernel) (by decide +kernel)
      (by decide +kernel) (by decide +kernel) (by decide +kernel)⟩

end KeepPeek.Access
