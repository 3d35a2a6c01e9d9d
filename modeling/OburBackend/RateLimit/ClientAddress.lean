import Mathlib.Data.List.DropRight
import OburBackend.Net.Ipaddress
import OburBackend.RateLimit.Middleware
import OburBackend.Text.Split

/-!
# The caller's address behind proxies

Each proxy appends the address of its peer to the last `X-Forwarded-For` header, so the entries that
the application reads are the client's own followed by one for each proxy (`entries_forward`).
Counting in from the right by the number of proxies passes over the addresses of all but the
outermost one and ends at what that one saw, whatever the client has sent.
-/

namespace OburBackend.RateLimit

open Ipaddress

/-! ## Spaces -/

/-- What is left of a list whose front has been taken off begins as the list does. -/
theorem dropWhile_rdropWhile_dropWhile {α : Type} (p : α → Bool) (l : List α) :
    ((l.dropWhile p).rdropWhile p).dropWhile p = (l.dropWhile p).rdropWhile p := by
  refine List.dropWhile_eq_self_iff.mpr fun hpos => ?_
  have hpre := List.rdropWhile_prefix p (l.dropWhile p)
  rw [hpre.getElem hpos]
  exact List.dropWhile_eq_self_iff.mp (List.dropWhile_idempotent p l) _

/-- `strip` takes off everything that it would take off. -/
theorem strip_strip (text : String) : strip (strip text) = strip text := by
  have htrim : ∀ l : List Char, ((l.dropWhile isSpace).reverse.dropWhile isSpace).reverse =
      (l.dropWhile isSpace).rdropWhile isSpace := fun _ => rfl
  have hagain : ∀ l : List Char, (l.reverse.dropWhile isSpace).reverse = l.rdropWhile isSpace :=
    fun _ => rfl
  simp only [strip, String.toList_ofList, htrim, dropWhile_rdropWhile_dropWhile]
  rw [hagain, List.rdropWhile_idempotent]

/-! ## The chain -/

/-- One hop of a request: the peer's address, and how the proxy that receives the request from this
peer spells it. -/
structure Hop where
  address : IPAddress
  spelling : String
  not_mem_comma : ',' ∉ spelling.toList
  spells : ipAddress (strip spelling) = some address

/-- An honest proxy adds the address of its peer to the last header, or adds a header. -/
def appendPeer (headers : List String) (hop : Hop) : List String :=
  match headers.getLast? with
  | none => [hop.spelling]
  | some header => headers.dropLast ++ [header ++ "," ++ hop.spelling]

/-- The headers that arrive behind a chain of proxies, each with its peer, the outermost first. -/
def forward (headers : List String) (hops : List Hop) : List String := hops.foldl appendPeer headers

/-- The entries that the application reads: those of the last header. -/
def entries (headers : List String) : List String :=
  match headers.getLast? with
  | none => []
  | some header => (header.splitOn ",").map strip

/-- A proxy adds one entry at the end. -/
theorem entries_appendPeer (headers : List String) (hop : Hop) :
    entries (appendPeer headers hop) = entries headers ++ [strip hop.spelling] := by
  unfold appendPeer entries
  cases headers.getLast? with
  | none =>
    simp only [List.getLast?_singleton, List.nil_append]
    rw [show ("," : String) = String.ofList [','] from rfl,
      Text.splitOn_of_not_mem hop.not_mem_comma, List.map_singleton]
  | some header =>
    simp only [List.getLast?_append, List.getLast?_singleton, Option.some_or]
    rw [show ("," : String) = String.ofList [','] from rfl,
      Text.splitOn_append hop.not_mem_comma, List.map_append, List.map_singleton]

/-- Each proxy adds one entry at the end. -/
theorem entries_forward (headers : List String) (hops : List Hop) :
    entries (forward headers hops) = entries headers ++ hops.map fun hop => strip hop.spelling := by
  induction hops generalizing headers with
  | nil => simp [forward]
  | cons hop hops ih =>
    have hstep := ih (appendPeer headers hop)
    rw [entries_appendPeer] at hstep
    simpa [forward] using hstep

/-- A chain of at least one proxy leaves a header. -/
theorem getLast?_forward (headers : List String) (hop : Hop) (hops : List Hop) :
    ∃ header, (forward headers (hop :: hops)).getLast? = some header := by
  induction hops generalizing headers hop with
  | nil =>
    simp only [forward, List.foldl_cons, List.foldl_nil, appendPeer]
    cases headers.getLast? <;> simp
  | cons hop' hops ih => exact ih (appendPeer headers hop) hop'

/-! ## What the application resolves -/

variable {env : Env} {request : Request}

/-- The socket's own address. -/
def direct (env : Env) (request : Request) : Option String :=
  (request.client.filter (· ≠ "")).bind (validAddress env)

/-- Without trusted proxies the peer is the client. -/
theorem resolveClientIp_of_no_proxy (h : env.trustedProxyCount = 0) :
    resolveClientIp env request = direct env request := by
  rw [resolveClientIp, if_pos h]
  rfl

/-- Behind proxies the entry is read that is as far from the right as there are proxies. -/
theorem resolveClientIp_of_proxies {n : ℕ} {header : String}
    (hn : env.trustedProxyCount = n + 1) (hlast : request.forwardedFor.getLast? = some header) :
    resolveClientIp env request =
      if (entries request.forwardedFor).length < 1 + n then none
      else ((entries request.forwardedFor)[(entries request.forwardedFor).length - 1 - n]?).bind
        (validAddress env) := by
  have hpos : env.trustedProxyCount ≠ 0 := by omega
  have hskip : env.trustedProxyCount - 1 = n := by omega
  rw [resolveClientIp, if_neg hpos]
  simp only [hlast, hskip, entries]

/-- The address of a hop is what its spelling is resolved to. -/
theorem validAddress_spelling (henv : env.ipAddress = canonical) (hop : Hop) :
    validAddress env (strip hop.spelling) = some hop.address.str := by
  rw [validAddress, strip_strip, henv, canonical, hop.spells]
  rfl

/-- Whatever is resolved is the canonical text of an address. -/
theorem validAddress_canonical (henv : env.ipAddress = canonical) {candidate text : String}
    (h : validAddress env candidate = some text) : ∃ address : IPAddress, text = address.str := by
  rw [validAddress, henv, canonical] at h
  obtain ⟨address, -, rfl⟩ := Option.map_eq_some_iff.mp h
  exact ⟨address, rfl⟩

/-- The address is in its canonical form. -/
theorem resolveClientIp_canonical (henv : env.ipAddress = canonical) {text : String}
    (h : resolveClientIp env request = some text) : ∃ address : IPAddress, text = address.str := by
  rcases hcount : env.trustedProxyCount with - | n
  · rw [resolveClientIp_of_no_proxy hcount] at h
    obtain ⟨_, -, h⟩ := Option.bind_eq_some_iff.mp h
    exact validAddress_canonical henv h
  rcases hlast : request.forwardedFor.getLast? with - | header
  · have hdirect : resolveClientIp env request = direct env request := by
      rw [resolveClientIp, hlast]
      exact ite_self _
    rw [hdirect] at h
    obtain ⟨_, -, h⟩ := Option.bind_eq_some_iff.mp h
    exact validAddress_canonical henv h
  · rw [resolveClientIp_of_proxies hcount hlast] at h
    split at h
    · cases h
    · obtain ⟨_, -, h⟩ := Option.bind_eq_some_iff.mp h
      exact validAddress_canonical henv h

/-- Behind a chain of proxies of the configured length the address is resolved that the outermost
one saw. -/
theorem resolveClientIp_forward (henv : env.ipAddress = canonical) (headers : List String)
    (client : Hop) (proxies : List Hop) (hcount : env.trustedProxyCount = proxies.length + 1) :
    resolveClientIp env { request with forwardedFor := forward headers (client :: proxies) } =
      some client.address.str := by
  obtain ⟨header, hlast⟩ := getLast?_forward headers client proxies
  have hentries := entries_forward headers (client :: proxies)
  have hlength : (entries (forward headers (client :: proxies))).length =
      (entries headers).length + (proxies.length + 1) := by
    rw [hentries]
    simp
  have hindex : (entries (forward headers (client :: proxies)))[(entries headers).length]? =
      some (strip client.spelling) := by
    rw [hentries]
    simp
  rw [resolveClientIp_of_proxies hcount hlast]
  simp only [hlength]
  rw [if_neg (by omega), show (entries headers).length + (proxies.length + 1) - 1 - proxies.length =
    (entries headers).length by omega, hindex]
  exact validAddress_spelling henv client

/-- With nothing in front of the application the socket's address is resolved. -/
theorem resolveClientIp_socket (henv : env.ipAddress = canonical)
    (hcount : env.trustedProxyCount = 0) {host : String} {address : IPAddress}
    (hhost : request.client = some host) (hspells : ipAddress (strip host) = some address) :
    resolveClientIp env request = some address.str := by
  have hnonempty : host ≠ "" := by
    rintro rfl
    have hnone : ipAddress (strip "") = none := by decide
    exact absurd (hnone.symm.trans hspells) nofun
  have hdirect : request.client.filter (· ≠ "") = some host :=
    Option.filter_eq_some_iff.mpr ⟨hhost, by simpa using hnonempty⟩
  rw [resolveClientIp_of_no_proxy hcount, direct, hdirect, Option.bind_some, validAddress, henv,
    canonical, hspells]
  rfl

/-- Behind a chain of honest proxies of the configured length the canonical text of the address that
the outermost one saw is resolved, whatever headers the client has sent; without proxies that of the
socket's address, whatever the headers; and nothing is ever resolved but a canonical text. -/
theorem resolveClientIp_unspoofable (env : Env) (request : Request)
    (henv : env.ipAddress = canonical) :
    (∀ (client : Hop) (proxies : List Hop) (headers : List String),
        env.trustedProxyCount = proxies.length + 1 →
          resolveClientIp env { request with forwardedFor := forward headers (client :: proxies) } =
            some client.address.str) ∧
      (env.trustedProxyCount = 0 →
        (∀ headers : List String,
          resolveClientIp env { request with forwardedFor := headers } =
            resolveClientIp env request) ∧
        ∀ (host : String) (address : IPAddress), request.client = some host →
          ipAddress (strip host) = some address →
            resolveClientIp env request = some address.str) ∧
      (resolveClientIp env request = none ∨
        ∃ address : IPAddress, resolveClientIp env request = some address.str) := by
  refine ⟨fun client proxies headers hcount => ?_, fun hcount => ⟨fun headers => ?_, ?_⟩, ?_⟩
  · exact resolveClientIp_forward henv headers client proxies hcount
  · rw [resolveClientIp_of_no_proxy hcount, resolveClientIp_of_no_proxy hcount]
    rfl
  · exact fun host address => resolveClientIp_socket henv hcount
  · cases hresolved : resolveClientIp env request with
    | none => exact .inl rfl
    | some text =>
      obtain ⟨address, rfl⟩ := resolveClientIp_canonical henv hresolved
      exact .inr ⟨address, rfl⟩

/-- An application behind two proxies, and a request of a client with a header of its own: the
addresses that the proxies saw. -/
def twoProxiesEnv : Env where
  rateLimitSecret := ""
  trustedProxyCount := 2
  hmacSha256 _ message := message
  ipAddress := canonical

def proxiedRequest : Request where
  method := "GET"
  path := "/"
  client := some "10.0.0.2"
  forwardedFor := []
  requestId := none
  state := .fresh

def clientHop : Hop where
  address := .v4 ⟨[203, 0, 113, 7], rfl⟩
  spelling := " 203.0.113.7"
  not_mem_comma := by decide
  spells := by decide

def proxyHop : Hop where
  address := .v4 ⟨[10, 0, 0, 1], rfl⟩
  spelling := "10.0.0.1"
  not_mem_comma := by decide
  spells := by decide

/-- Two proxies and a header that the client has made up. -/
theorem resolveClientIp_unspoofable_twoProxies :
    resolveClientIp twoProxiesEnv
        { proxiedRequest with
          forwardedFor := forward ["1.2.3.4,", ",, 5.6.7.8"] [clientHop, proxyHop] } =
      some "203.0.113.7" :=
  (resolveClientIp_unspoofable twoProxiesEnv proxiedRequest rfl).1 clientHop [proxyHop]
    ["1.2.3.4,", ",, 5.6.7.8"] rfl

end OburBackend.RateLimit
