import Atlas.Core.ClientAddress

/-!
# The client does not choose the address of its login

The two loops walk over the entries of all values from the right (`clientOfValues_eq`) and stop at
the first that is of no trusted proxy. What is to the left of it does not count, nor how the entries
are spelled and put into lines (`login_identity`).
-/

namespace Atlas.Core.Admin

section Walk

variable (netip : Netip) (trusted : List Prefix)

/-- The entries of all values of the header, as they stand. -/
def entries (r : Request) : List String := (r.header "X-Forwarded-For").flatMap splitCommas

/-- An entry that is the plain address of a trusted proxy. -/
def Inside (entry : String) : Prop :=
  ∃ ip, parseForwardedIP netip entry = some ip ∧ ipInPrefixes ip trusted = true

theorem clientOfEntries_append (l l' : List String) : clientOfEntries netip trusted (l ++ l')
    = (clientOfEntries netip trusted l).or (clientOfEntries netip trusted l') := by
  induction l with
  | nil => rfl
  | cons entry l ih =>
    rw [List.cons_append, clientOfEntries, clientOfEntries]
    split
    · rfl
    · split_ifs
      · exact ih
      · rfl

theorem clientOfValues_eq (values : List String) : clientOfValues netip trusted values
    = (clientOfEntries netip trusted
        (values.flatMap fun value => (splitCommas value).reverse)).getD "" := by
  induction values with
  | nil => rfl
  | cons value values ih =>
    rw [clientOfValues, List.flatMap_cons, clientOfEntries_append, ih]
    cases clientOfEntries netip trusted (splitCommas value).reverse <;> rfl

theorem clientIP_of_trusted {r : Request} {peer : Addr}
    (hpeer : parseRemoteIP netip r.remoteAddr = some peer)
    (htrusted : ipInPrefixes peer trusted = true)
    (hcf : r.header "CF-Connecting-IP" = []) :
    clientIP netip r trusted = (clientOfEntries netip trusted (entries r).reverse).getD "" := by
  rw [clientIP, hpeer]
  dsimp only
  rw [if_pos htrusted, hcf]
  dsimp only
  rw [clientIPFromXForwardedFor, clientOfValues_eq, entries, List.reverse_flatMap]
  rfl

variable {netip trusted}

theorem clientOfEntries_inside {l : List String} (h : ∀ e ∈ l, Inside netip trusted e) :
    clientOfEntries netip trusted l = none := by
  induction l with
  | nil => rfl
  | cons entry l ih =>
    obtain ⟨⟨ip, hip, hin⟩, hl⟩ := List.forall_mem_cons.1 h
    rw [clientOfEntries, hip]
    dsimp only
    rw [if_pos hin, ih hl]

/-- The walk ends at the right-most entry that is of no trusted proxy. -/
theorem clientOfEntries_stop {left right : List String} {entry : String}
    (hentry : ¬Inside netip trusted entry) (hright : ∀ e ∈ right, Inside netip trusted e) :
    clientOfEntries netip trusted (left ++ entry :: right).reverse
      = some ((parseForwardedIP netip entry).elim "" netip.string) := by
  rw [List.reverse_append, List.reverse_cons, List.append_assoc, clientOfEntries_append,
    clientOfEntries_inside fun e he => hright e (List.mem_reverse.1 he), Option.none_or,
    List.singleton_append, clientOfEntries]
  cases hip : parseForwardedIP netip entry with
  | none => rfl
  | some ip =>
    dsimp only
    rw [if_neg fun hin => hentry ⟨ip, hip, hin⟩]
    rfl

/-- The walk takes of an entry only the address it is read as. -/
theorem clientOfEntries_congr {l l' : List String}
    (h : List.Forall₂ (fun e e' => parseForwardedIP netip e = parseForwardedIP netip e') l l') :
    clientOfEntries netip trusted l = clientOfEntries netip trusted l' := by
  induction h with
  | nil => rfl
  | cons hentry _ ih => rw [clientOfEntries, clientOfEntries, hentry, ih]

end Walk

section Spelling

variable (netip : Netip)

/-- The IPv4-mapped IPv6 address of an IPv4 address. -/
def mapped (ip : BitVec 32) : BitVec 128 := 0xffff#96 ++ ip

/-- The ways to write an IPv4 address. -/
inductive Spelling (ip : BitVec 32) : Addr → Prop
  | plain : Spelling ip (.v4 ip)
  | inIPv6 (zone : String) : Spelling ip (.v6 (mapped ip) zone)

theorem Spelling.unmap {ip : BitVec 32} {a : Addr} (h : Spelling ip a) : a.unmap = .v4 ip := by
  cases h with
  | plain => rfl
  | inIPv6 zone =>
    have hlt := ip.isLt
    have hnat : (mapped ip).toNat = 0xffff * 2 ^ 32 + ip.toNat := by
      rw [mapped, BitVec.toNat_append, ← Nat.shiftLeft_add_eq_or_of_lt hlt, Nat.shiftLeft_eq]
      rfl
    have hprefix : mapped ip >>> 32 = 0xffff#128 := by
      refine BitVec.eq_of_toNat_eq ?_
      rw [BitVec.toNat_ushiftRight, hnat, Nat.shiftRight_eq_div_pow]
      change _ = 0xffff
      omega
    have hip : (mapped ip).setWidth 32 = ip := by
      refine BitVec.eq_of_toNat_eq ?_
      rw [BitVec.toNat_setWidth, hnat]
      omega
    rw [Addr.unmap, if_pos hprefix, hip]

/-- The address a remote address is read as, with or without a port. -/
def ReadsPeer (text : String) (a : Addr) : Prop :=
  (∃ port, netip.parseAddrPort (trimSpace text) = some (a, port))
    ∨ netip.parseAddrPort (trimSpace text) = none ∧ netip.parseAddr (trimSpace text) = some a

/-- The same text between spaces, or spellings of one IPv4 address. -/
def SamePeer (text text' : String) : Prop :=
  trimSpace text = trimSpace text' ∨ ∃ ip a a', ReadsPeer netip text a ∧ ReadsPeer netip text' a'
    ∧ Spelling ip a ∧ Spelling ip a'

def SameEntry (text text' : String) : Prop :=
  trimSpace text = trimSpace text' ∨ ∃ ip a a', netip.parseAddr (trimSpace text) = some a
    ∧ netip.parseAddr (trimSpace text') = some a' ∧ a.zone = "" ∧ a'.zone = ""
    ∧ Spelling ip a ∧ Spelling ip a'

variable {netip}

theorem SamePeer.parseRemoteIP_eq {text text' : String} (h : SamePeer netip text text') :
    parseRemoteIP netip text = parseRemoteIP netip text' := by
  rcases h with h | ⟨ip, a, a', ha, ha', hs, hs'⟩
  · rw [parseRemoteIP, parseRemoteIP, h]
  · have hread : ∀ {text a}, ReadsPeer netip text a → Spelling ip a →
        parseRemoteIP netip text = some (.v4 ip) := by
      rintro text a (⟨port, hport⟩ | ⟨hport, haddr⟩) hs
      · rw [parseRemoteIP, hport]
        dsimp only
        rw [hs.unmap]
        rfl
      · rw [parseRemoteIP, hport]
        dsimp only
        rw [haddr, Option.map_some, hs.unmap]
        rfl
    rw [hread ha hs, hread ha' hs']

theorem SameEntry.parseForwardedIP_eq {text text' : String} (h : SameEntry netip text text') :
    parseForwardedIP netip text = parseForwardedIP netip text' := by
  rcases h with h | ⟨ip, a, a', ha, ha', hzone, hzone', hs, hs'⟩
  · rw [parseForwardedIP, parseForwardedIP, h]
  · rw [parseForwardedIP, parseForwardedIP, ha, ha']
    dsimp only
    rw [if_neg (not_not.2 hzone), if_neg (not_not.2 hzone'), hs.unmap, hs'.unmap]

theorem SameEntry.inside_iff {trusted : List Prefix} {e e' : String} (h : SameEntry netip e e') :
    Inside netip trusted e ↔ Inside netip trusted e' := by
  rw [Inside, Inside, h.parseForwardedIP_eq]

theorem inside_of_same {trusted : List Prefix} {l l' : List String}
    (h : List.Forall₂ (SameEntry netip) l l') (hl : ∀ e ∈ l, Inside netip trusted e) :
    ∀ e ∈ l', Inside netip trusted e := by
  induction h with
  | nil => exact hl
  | cons hentry _ ih =>
    obtain ⟨hfirst, hrest⟩ := List.forall_mem_cons.1 hl
    exact List.forall_mem_cons.2 ⟨hentry.inside_iff.1 hfirst, ih hrest⟩

theorem clientIP_congr {trusted : List Prefix} {r r' : Request}
    (hpeer : SamePeer netip r.remoteAddr r'.remoteAddr)
    (hcf : List.Forall₂ (SameEntry netip) (r.header "CF-Connecting-IP")
      (r'.header "CF-Connecting-IP"))
    (hxff : List.Forall₂ (SameEntry netip) (entries r) (entries r')) :
    clientIP netip r trusted = clientIP netip r' trusted := by
  have hwalk : clientIPFromXForwardedFor netip (r.header "X-Forwarded-For") trusted
      = clientIPFromXForwardedFor netip (r'.header "X-Forwarded-For") trusted := by
    rw [clientIPFromXForwardedFor, clientIPFromXForwardedFor, clientOfValues_eq, clientOfValues_eq,
      ← Function.comp_def List.reverse splitCommas, ← List.reverse_flatMap, ← List.reverse_flatMap]
    exact congrArg (·.getD "") (clientOfEntries_congr
      (List.rel_reverse (hxff.imp fun _ _ h => h.parseForwardedIP_eq)))
  rw [clientIP, clientIP, hpeer.parseRemoteIP_eq, hwalk]
  generalize r.header "CF-Connecting-IP" = values at hcf
  generalize r'.header "CF-Connecting-IP" = values' at hcf
  cases hcf with
  | nil => rfl
  | cons hvalue hrest =>
    cases hrest with
    | nil => dsimp only; rw [hvalue.parseForwardedIP_eq]
    | cons _ _ => rfl

end Spelling

/-- Whatever the parsers read: an untrusted peer is its own identity, that of a request of a trusted
one is the right-most entry of no trusted proxy if it is a plain address, what is left of it and how
the entries are padded does not count, and spellings of one address are one identity. -/
theorem login_identity (netip : Netip) (trusted : List Prefix) :
    (∀ r peer, parseRemoteIP netip r.remoteAddr = some peer → ipInPrefixes peer trusted = false →
      clientIP netip r trusted = netip.string peer)
      ∧ (∀ r peer, parseRemoteIP netip r.remoteAddr = some peer → ipInPrefixes peer trusted = true →
        r.header "CF-Connecting-IP" = [] →
          (∀ left entry right, entries r = left ++ entry :: right → ¬Inside netip trusted entry →
            (∀ e ∈ right, Inside netip trusted e) →
              clientIP netip r trusted = (parseForwardedIP netip entry).elim "" netip.string)
          ∧ ((∀ e ∈ entries r, Inside netip trusted e) → clientIP netip r trusted = ""))
      ∧ (∀ r r' peer peer', parseRemoteIP netip r.remoteAddr = some peer →
        parseRemoteIP netip r'.remoteAddr = some peer' → ipInPrefixes peer trusted = true →
        ipInPrefixes peer' trusted = true → r.header "CF-Connecting-IP" = [] →
        r'.header "CF-Connecting-IP" = [] →
          ∀ left left' entry entry' right right', entries r = left ++ entry :: right →
            entries r' = left' ++ entry' :: right' → ¬Inside netip trusted entry →
            (∀ e ∈ right, Inside netip trusted e) →
            List.Forall₂ (SameEntry netip) (entry :: right) (entry' :: right') →
              clientIP netip r trusted = clientIP netip r' trusted)
      ∧ ∀ r r', SamePeer netip r.remoteAddr r'.remoteAddr →
        List.Forall₂ (SameEntry netip) (r.header "CF-Connecting-IP")
          (r'.header "CF-Connecting-IP") →
        List.Forall₂ (SameEntry netip) (entries r) (entries r') →
          parseRemoteIP netip r.remoteAddr = parseRemoteIP netip r'.remoteAddr
            ∧ clientIP netip r trusted = clientIP netip r' trusted := by
  have hstop : ∀ r peer, parseRemoteIP netip r.remoteAddr = some peer →
      ipInPrefixes peer trusted = true → r.header "CF-Connecting-IP" = [] →
      ∀ left entry right, entries r = left ++ entry :: right → ¬Inside netip trusted entry →
        (∀ e ∈ right, Inside netip trusted e) →
          clientIP netip r trusted = (parseForwardedIP netip entry).elim "" netip.string := by
    intro r peer hpeer hin hcf left entry right heq hentry hright
    rw [clientIP_of_trusted netip trusted hpeer hin hcf, heq, clientOfEntries_stop hentry hright]
    rfl
  refine ⟨fun r peer hpeer hout => ?_, fun r peer hpeer hin hcf => ⟨hstop r peer hpeer hin hcf,
    fun hall => ?_⟩, ?_, fun r r' hpeer hcf hxff => ⟨hpeer.parseRemoteIP_eq,
      clientIP_congr hpeer hcf hxff⟩⟩
  · rw [clientIP, hpeer]
    exact if_neg (by rw [hout]; exact Bool.false_ne_true)
  · rw [clientIP_of_trusted netip trusted hpeer hin hcf,
      clientOfEntries_inside fun e he => hall e (List.mem_reverse.1 he)]
    rfl
  · intro r r' peer peer' hpeer hpeer' hin hin' hcf hcf' left left' entry entry' right right' heq
      heq' hentry hright hsame
    cases hsame with
    | cons hfirst hrest =>
      rw [hstop r peer hpeer hin hcf left entry right heq hentry hright,
        hstop r' peer' hpeer' hin' hcf' left' entry' right' heq'
          (fun h => hentry (hfirst.inside_iff.2 h)) (inside_of_same hrest hright),
        hfirst.parseForwardedIP_eq]

section Addresses

def proxy : Addr := .v4 0xac1e0003#32

def hop : Addr := .v4 0x0a000008#32

def client : BitVec 32 := 0xcb007128#32

/-- The addresses of the requests below. -/
def known : Netip where
  parseAddr s :=
    if s = "10.0.0.8" then some hop
    else if s = "203.0.113.40" then some (.v4 client)
    else if s = "::ffff:203.0.113.40" then some (.v6 (mapped client) "")
    else none
  parseAddrPort s := if s = "172.30.0.3:4242" then some (proxy, 4242) else none
  string a :=
    if a = .v4 client then "203.0.113.40" else if a = hop then "10.0.0.8" else "172.30.0.3"

def trustedProxies : List Prefix := [.v4 0xac1e0003#32 32, .v4 0x0a000000#32 8]

def forwarded (values : List String) : Request :=
  ⟨"172.30.0.3:4242", fun name => if name = "X-Forwarded-For" then values else []⟩

theorem login_identity_forwarded :
    clientIP known (forwarded ["203.0.113.40, 10.0.0.8"]) trustedProxies = "203.0.113.40"
      ∧ clientIP known (forwarded ["203.0.113.40, 10.0.0.8"]) trustedProxies
        = clientIP known (forwarded ["spoofed,  ::ffff:203.0.113.40", " 10.0.0.8"])
          trustedProxies := by
  obtain ⟨-, hidentity, hsame, -⟩ := login_identity known trustedProxies
  have hpeer : parseRemoteIP known "172.30.0.3:4242" = some proxy := by decide +kernel
  have hin : ipInPrefixes proxy trustedProxies = true := by decide +kernel
  have hentries : entries (forwarded ["203.0.113.40, 10.0.0.8"])
      = [] ++ "203.0.113.40" :: [" 10.0.0.8"] := by decide +kernel
  have hentries' : entries (forwarded ["spoofed,  ::ffff:203.0.113.40", " 10.0.0.8"])
      = ["spoofed"] ++ "  ::ffff:203.0.113.40" :: [" 10.0.0.8"] := by decide +kernel
  have hclient : parseForwardedIP known "203.0.113.40" = some (.v4 client) := by decide +kernel
  have houtside : ¬Inside known trustedProxies "203.0.113.40" := by
    rintro ⟨ip, hip, hinside⟩
    obtain rfl := Option.some.inj (hclient.symm.trans hip)
    exact absurd hinside (by decide +kernel)
  have hinside : ∀ e ∈ [" 10.0.0.8"], Inside known trustedProxies e := by
    rintro e he
    rw [List.mem_singleton.1 he]
    exact ⟨hop, by decide +kernel, by decide +kernel⟩
  have hspelled : SameEntry known "203.0.113.40" "  ::ffff:203.0.113.40" :=
    .inr ⟨client, _, _, by decide +kernel, by decide +kernel, rfl, rfl, .plain, .inIPv6 ""⟩
  constructor
  · rw [(hidentity _ proxy hpeer hin rfl).1 _ _ _ hentries houtside hinside, hclient]
    rfl
  · exact hsame _ _ proxy proxy hpeer hpeer hin hin rfl rfl _ _ _ _ _ _ hentries hentries' houtside
      hinside (.cons hspelled (.cons (.inl rfl) .nil))

end Addresses

end Atlas.Core.Admin
