import KiwiCatalog.Discovery.FetchErrors

/-!
# BlockedAddresses — the block list and the addresses that embed others

Two networks are nested or disjoint, so that one comparison of their first addresses settles every
address in them.
-/

set_option autoImplicit false

namespace KiwiCatalog.Discovery.Fetcher

/-! ## Networks -/

namespace Network

variable {width : Nat}

/-- The wider of the two networks leaves out the first address of the other. -/
def disjoint (net net' : Network width) : Bool :=
  if net.prefixLength ≤ net'.prefixLength then !net.contains net'.first
  else !net'.contains net.first

theorem contains_iff {net : Network width} {address : BitVec width} :
    net.contains address = true ↔
      address >>> (width - net.prefixLength) = net.first >>> (width - net.prefixLength) := by
  rw [contains, decide_eq_true_eq]

/-- In a network, another one with a prefix that is no longer contains all or nothing. -/
theorem contains_eq_first {net net' : Network width} {address : BitVec width}
    (hlen : net'.prefixLength ≤ net.prefixLength) (h : net.contains address = true) :
    net'.contains address = net'.contains net.first := by
  have hsplit : width - net'.prefixLength =
      (width - net.prefixLength) +
        ((width - net'.prefixLength) - (width - net.prefixLength)) := by omega
  rw [contains_iff] at h
  rw [contains, contains, hsplit, BitVec.shiftRight_add, BitVec.shiftRight_add,
    BitVec.shiftRight_add, h]

theorem disjoint_contains {net net' : Network width} (hdisjoint : net.disjoint net' = true)
    {address : BitVec width} (h : net.contains address = true) :
    net'.contains address = false := by
  unfold disjoint at hdisjoint
  split at hdisjoint
  · rename_i hlen
    -- the address would carry the first one of the other network into this one
    apply Bool.eq_false_iff.mpr
    intro hother
    rw [contains_eq_first hlen hother] at h
    rw [h] at hdisjoint
    cases hdisjoint
  · rw [contains_eq_first (by omega) h]
    simpa using hdisjoint

end Network

/-! ## The properties of `ipaddress` -/

def loopbackV4 : Network 32 := ⟨"127.0.0.0/8", 0x7f000000#32, 8⟩

def linkLocalV4 : Network 32 := ⟨"169.254.0.0/16", 0xa9fe0000#32, 16⟩

def multicastV4 : Network 32 := ⟨"224.0.0.0/4", 0xe0000000#32, 4⟩

/-- `_public_network`, which is neither private nor global. -/
def sharedV4 : Network 32 := ⟨"100.64.0.0/10", 0x64400000#32, 10⟩

def reservedV4 : Network 32 := ⟨"240.0.0.0/4", 0xf0000000#32, 4⟩

/-- The blocks of the registry that are not globally reachable; documentation and benchmarking are
among them. -/
def privateNetworksV4 : List (Network 32) :=
  [⟨"0.0.0.0/8", 0#32, 8⟩,
    ⟨"10.0.0.0/8", 0x0a000000#32, 8⟩,
    ⟨"127.0.0.0/8", 0x7f000000#32, 8⟩,
    ⟨"169.254.0.0/16", 0xa9fe0000#32, 16⟩,
    ⟨"172.16.0.0/12", 0xac100000#32, 12⟩,
    ⟨"192.0.0.0/24", 0xc0000000#32, 24⟩,
    ⟨"192.0.0.170/31", 0xc00000aa#32, 31⟩,
    ⟨"192.0.2.0/24", 0xc0000200#32, 24⟩,
    ⟨"192.168.0.0/16", 0xc0a80000#32, 16⟩,
    ⟨"198.18.0.0/15", 0xc6120000#32, 15⟩,
    ⟨"198.51.100.0/24", 0xc6336400#32, 24⟩,
    ⟨"203.0.113.0/24", 0xcb007100#32, 24⟩,
    ⟨"240.0.0.0/4", 0xf0000000#32, 4⟩,
    ⟨"255.255.255.255/32", 0xffffffff#32, 32⟩]

def privateExceptionsV4 : List (Network 32) :=
  [⟨"192.0.0.9/32", 0xc0000009#32, 32⟩, ⟨"192.0.0.10/32", 0xc000000a#32, 32⟩]

def privateNetworksV6 : List (Network 128) :=
  [⟨"::1/128", 1#128, 128⟩,
    ⟨"::/128", 0#128, 128⟩,
    ⟨"::ffff:0:0/96", 0xffff#128 <<< 32, 96⟩,
    ⟨"64:ff9b:1::/48", 0x64ff9b0001#128 <<< 80, 48⟩,
    ⟨"100::/64", 0x100#128 <<< 112, 64⟩,
    ⟨"2001::/23", 0x2001#128 <<< 112, 23⟩,
    ⟨"2001:db8::/32", 0x20010db8#128 <<< 96, 32⟩,
    ⟨"2002::/16", 0x2002#128 <<< 112, 16⟩,
    ⟨"fc00::/7", 0xfc00#128 <<< 112, 7⟩,
    ⟨"fe80::/10", 0xfe80#128 <<< 112, 10⟩]

def privateExceptionsV6 : List (Network 128) :=
  [⟨"2001:1::1/128", 0x20010001#128 <<< 96 ||| 1#128, 128⟩,
    ⟨"2001:1::2/128", 0x20010001#128 <<< 96 ||| 2#128, 128⟩,
    ⟨"2001:3::/32", 0x20010003#128 <<< 96, 32⟩,
    ⟨"2001:4:112::/48", 0x200100040112#128 <<< 80, 48⟩,
    ⟨"2001:20::/28", 0x20010020#128 <<< 96, 28⟩,
    ⟨"2001:30::/28", 0x20010030#128 <<< 96, 28⟩]

def isPrivateV4 (address : BitVec 32) : Bool :=
  (privateNetworksV4.any fun net => net.contains address) &&
    privateExceptionsV4.all fun net => !net.contains address

/-- The address that is mapped decides for a mapped one. -/
def isPrivateV6 (address : BitVec 128) : Bool :=
  if ipv4MappedV6.contains address then isPrivateV4 (address.setWidth 32)
  else (privateNetworksV6.any fun net => net.contains address) &&
    privateExceptionsV6.all fun net => !net.contains address

def isPrivate : Ip → Bool
  | .v4 address => isPrivateV4 address
  | .v6 address => isPrivateV6 address

def isLoopback : Ip → Bool
  | .v4 address => loopbackV4.contains address
  | .v6 address => address = 1#128

def isLinkLocal : Ip → Bool
  | .v4 address => linkLocalV4.contains address
  | .v6 address => linkLocalV6.contains address

/-- The library with these properties of addresses. -/
def withIpaddress (lib : Library) : Library :=
  { lib with isLoopback := isLoopback, isPrivate := isPrivate, isLinkLocal := isLinkLocal }

/-! ## The block list of IPv4 -/

/-- No address of these kinds is a globally routable unicast address. -/
def specialV4 (address : BitVec 32) : Bool :=
  isPrivateV4 address || loopbackV4.contains address || linkLocalV4.contains address ||
    sharedV4.contains address || multicastV4.contains address || reservedV4.contains address ||
    address = 0#32

variable {lib : Library}

theorem blockedV4_eq_none {address : BitVec 32} :
    blockedV4 lib address = none ↔
      lib.isLoopback (.v4 address) = false ∧ address ≠ metadataIp ∧
        lib.isPrivate (.v4 address) = false ∧ lib.isLinkLocal (.v4 address) = false ∧
        ∀ net ∈ extraBlockedV4, net.contains address = false := by
  unfold blockedV4
  split
  · rename_i h
    simp [h]
  · rename_i hloopback
    split
    · rename_i h
      simp [h]
    · rename_i hmetadata
      split
      · rename_i h
        simp [h]
      · rename_i hprivate
        split
        · rename_i h
          simp [h]
        · rename_i hlocal
          simp [hloopback, hmetadata, hprivate, hlocal]

/-- Multicast has nothing in common with what is private or extra, so nothing stops it. -/
theorem multicast_unblocked {address : BitVec 32} (h : multicastV4.contains address = true) :
    blockedV4 (withIpaddress lib) address = none := by
  have hprivate : ∀ net ∈ privateNetworksV4, net.contains address = false := by
    have hall : ∀ net ∈ privateNetworksV4, multicastV4.disjoint net = true := by decide
    exact fun net hnet => Network.disjoint_contains (hall net hnet) h
  have hextra : ∀ net ∈ extraBlockedV4, net.contains address = false := by
    have hall : ∀ net ∈ extraBlockedV4, multicastV4.disjoint net = true := by decide
    exact fun net hnet => Network.disjoint_contains (hall net hnet) h
  rw [blockedV4_eq_none]
  refine ⟨hprivate loopbackV4 (by simp [privateNetworksV4, loopbackV4]), ?_, ?_,
    hprivate linkLocalV4 (by simp [privateNetworksV4, linkLocalV4]), hextra⟩
  · intro heq
    subst heq
    revert h
    decide
  · show isPrivateV4 address = false
    rw [isPrivateV4, List.any_eq_false.mpr (by simpa using hprivate), Bool.false_and]

/-- Every other special address is stopped. -/
theorem special_of_unblocked {address : BitVec 32}
    (h : blockedV4 (withIpaddress lib) address = none) :
    specialV4 address = multicastV4.contains address := by
  obtain ⟨hloopback, _, hprivate, hlocal, hextra⟩ := blockedV4_eq_none.mp h
  have hshared := hextra sharedV4 (by simp [extraBlockedV4, sharedV4])
  have hreserved := hextra reservedV4 (by simp [extraBlockedV4, reservedV4])
  have hthis := hextra ⟨"0.0.0.0/8", 0#32, 8⟩ (by simp [extraBlockedV4])
  have hzero : address ≠ 0#32 := by
    intro heq
    subst heq
    revert hthis
    decide
  unfold specialV4
  rw [show isPrivateV4 address = false from hprivate,
    show loopbackV4.contains address = false from hloopback,
    show linkLocalV4.contains address = false from hlocal, hshared, hreserved,
    decide_eq_false hzero]
  simp

/-! ## Addresses that embed others -/

/-- The three forms with an IPv4 address in their last 32 bits. -/
def embeddingNetworks : List (Network 128) := [ipv4MappedV6, ipv4CompatibleV6, nat64V6]

def Embeds (address : BitVec 32) (embedding : BitVec 128) : Prop :=
  (∃ net ∈ embeddingNetworks, net.contains embedding = true) ∧ embedding.setWidth 32 = address

theorem blockedV6_eq_none {address : BitVec 128} :
    blockedV6 lib address = none ↔
      lib.isLoopback (.v6 address) = false ∧ lib.isPrivate (.v6 address) = false ∧
        lib.isLinkLocal (.v6 address) = false ∧ linkLocalV6.contains address = false ∧
        (∀ net ∈ extraBlockedV6, net.contains address = false) ∧
        ((∃ net ∈ embeddingNetworks, net.contains address = true) →
          blockedV4 lib (address.setWidth 32) = none) := by
  unfold blockedV6
  dsimp only
  split
  · rename_i h
    simp [h]
  · rename_i hloopback
    split
    · rename_i h
      simp [h]
    · rename_i hprivate
      split
      · rename_i h
        simp only [Bool.or_eq_true] at h
        rcases h with h | h
        · simp [h]
        · simp [h]
      · rename_i hlocal
        split
        · rename_i net hfind
          have hmem := List.mem_of_find?_eq_some hfind
          have hcontains := List.find?_some hfind
          simp only [reduceCtorEq, false_iff]
          rintro ⟨_, _, _, _, hextra, _⟩
          rw [hextra net hmem] at hcontains
          cases hcontains
        · rename_i hfind
          have hextra : ∀ net ∈ extraBlockedV6, net.contains address = false := by
            simpa using hfind
          simp only [Bool.or_eq_true, not_or, Bool.not_eq_true] at hlocal
          -- what is left is the question of the embedded address, asked once or twice
          have hembeds : (∃ net ∈ embeddingNetworks, net.contains address = true) ↔
              ipv4MappedV6.contains address = true ∨
                (nat64V6.contains address || ipv4CompatibleV6.contains address) = true := by
            simp [embeddingNetworks, or_comm]
          rw [hembeds]
          cases blockedV4 lib (address.setWidth 32) with
          | none =>
            simp only [hloopback, hprivate, hlocal]
            simpa using hextra
          | some reason =>
            by_cases hmapped : ipv4MappedV6.contains address = true
            · simp [hmapped]
            · by_cases hother : (nat64V6.contains address || ipv4CompatibleV6.contains address) = true
              · simp [hmapped, hother]
              · simp only [hloopback, hprivate, hlocal, hmapped, hother]
                simpa using hextra

theorem embedded_blocked {address : BitVec 32} {embedding : BitVec 128}
    (h : Embeds address embedding) (hblocked : (blockedV4 lib address).isSome = true) :
    (blockedV6 lib embedding).isSome = true := by
  rw [Option.isSome_iff_ne_none] at hblocked ⊢
  intro hnone
  obtain ⟨_, _, _, _, _, hlow⟩ := blockedV6_eq_none.mp hnone
  apply hblocked
  rw [← h.2]
  exact hlow h.1

/-- The loopback and the unspecified address of IPv6 embed addresses that are blocked themselves. -/
theorem unblocked_ne_low {address : BitVec 32} {embedding : BitVec 128}
    (hembeds : embedding.setWidth 32 = address)
    (h : blockedV4 (withIpaddress lib) address = none) : embedding ≠ 0#128 ∧ embedding ≠ 1#128 := by
  obtain ⟨_, _, _, _, hextra⟩ := blockedV4_eq_none.mp h
  have hthis := hextra ⟨"0.0.0.0/8", 0#32, 8⟩ (by simp [extraBlockedV4])
  subst hembeds
  constructor
  · intro heq
    subst heq
    revert hthis
    decide
  · intro heq
    subst heq
    revert hthis
    decide

/-- The forms have nothing in common with what is private in IPv6, two addresses and the mapped
ones apart. -/
theorem embedding_not_private {address : BitVec 32} {embedding : BitVec 128}
    (hembeds : Embeds address embedding) (h : blockedV4 (withIpaddress lib) address = none) :
    isPrivateV6 embedding = false := by
  obtain ⟨_, _, hprivate, _, _⟩ := blockedV4_eq_none.mp h
  obtain ⟨hzero, hone⟩ := unblocked_ne_low hembeds.2 h
  unfold isPrivateV6
  split
  · rw [hembeds.2]
    exact hprivate
  · rename_i hmapped
    obtain ⟨form, hform, hcontains⟩ := hembeds.1
    have hnets : ∀ net ∈ privateNetworksV6, net.contains embedding = false := by
      intro net hnet
      have hall : ∀ form ∈ embeddingNetworks, ∀ net ∈ privateNetworksV6.drop 3,
          form.disjoint net = true := by decide
      rcases List.mem_cons.mp hnet with rfl | hnet
      · exact Bool.eq_false_iff.mpr fun heq => hone (by simpa [Network.contains] using heq)
      rcases List.mem_cons.mp hnet with rfl | hnet
      · exact Bool.eq_false_iff.mpr fun heq => hzero (by simpa [Network.contains] using heq)
      rcases List.mem_cons.mp hnet with rfl | hnet
      · exact Bool.eq_false_iff.mpr hmapped
      · exact Network.disjoint_contains (hall form hform net hnet) hcontains
    rw [List.any_eq_false.mpr (by simpa using hnets), Bool.false_and]

theorem embedded_unblocked {address : BitVec 32} {embedding : BitVec 128}
    (hembeds : Embeds address embedding) (h : blockedV4 (withIpaddress lib) address = none) :
    blockedV6 (withIpaddress lib) embedding = none := by
  obtain ⟨form, hform, hcontains⟩ := hembeds.1
  have hlocal : linkLocalV6.contains embedding = false := by
    have hall : ∀ form ∈ embeddingNetworks, form.disjoint linkLocalV6 = true := by decide
    exact Network.disjoint_contains (hall form hform) hcontains
  have hextra : ∀ net ∈ extraBlockedV6, net.contains embedding = false := by
    have hall : ∀ form ∈ embeddingNetworks, ∀ net ∈ extraBlockedV6,
        form.disjoint net = true := by decide
    exact fun net hnet => Network.disjoint_contains (hall form hform net hnet) hcontains
  rw [blockedV6_eq_none]
  refine ⟨decide_eq_false (unblocked_ne_low hembeds.2 h).2, embedding_not_private hembeds h,
    hlocal, hlocal, hextra, fun _ => ?_⟩
  rw [hembeds.2]
  exact h

/-! ## Closure under embedding -/

/-- What the block list owes to an address and to those that embed it. -/
structure ClosedAt (lib : Library) (address : BitVec 32) : Prop where
  special : specialV4 address = true → (isBlockedIp lib (.v4 address)).isSome = true
  embedded : (isBlockedIp lib (.v4 address)).isSome = true →
    ∀ embedding, Embeds address embedding → (isBlockedIp lib (.v6 embedding)).isSome = true
  unblocked : isBlockedIp lib (.v4 address) = none →
    ∀ embedding, Embeds address embedding → isBlockedIp lib (.v6 embedding) = none

theorem closed_iff_not_multicast (lib : Library) (address : BitVec 32) :
    ClosedAt (withIpaddress lib) address ↔ multicastV4.contains address = false := by
  constructor
  · intro h
    apply Bool.eq_false_iff.mpr
    intro hmulticast
    have hspecial : specialV4 address = true := by simp [specialV4, hmulticast]
    have hblocked := h.special hspecial
    rw [isBlockedIp, multicast_unblocked hmulticast] at hblocked
    cases hblocked
  · intro hunicast
    constructor
    · intro hspecial
      apply Option.isSome_iff_ne_none.mpr
      intro hnone
      rw [special_of_unblocked hnone, hunicast] at hspecial
      cases hspecial
    · exact fun hblocked _ hembeds => embedded_blocked hembeds hblocked
    · exact fun hnone _ hembeds => embedded_unblocked hembeds hnone

/-- `224.0.0.1`. -/
theorem all_hosts_not_blocked :
    ¬ ∀ address, ClosedAt (withIpaddress asciiLibrary) address := by
  intro h
  have hblocked := (h 0xe0000001#32).special (by decide +kernel)
  rw [isBlockedIp, multicast_unblocked (by decide +kernel)] at hblocked
  cases hblocked

end KiwiCatalog.Discovery.Fetcher
