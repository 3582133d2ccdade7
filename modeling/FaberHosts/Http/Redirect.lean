import Mathlib

/-!
# Redirects of the HTTP client

`send_request` owns the redirect loop: it drops the headers off the safe list when a
hop leaves the origin of the hop before, sends the body once and refuses to go from
`https` to `http`.  URLs and the transport are those of the external crates.
-/

namespace FaberHosts.Http

/-! ## URLs and the transport -/

/-- What the client uses of its URL crate. -/
structure Urls where
  Url : Type
  parse : String → Except String Url
  join : Url → String → Except String Url
  render : Url → String
  scheme : Url → String
  host : Url → String
  portOrKnownDefault : Url → Option UInt16

structure Origin where
  scheme : String
  host : String
  port : Option UInt16
  deriving DecidableEq, Repr

structure Response where
  status : UInt16
  location : Option String
  body : List UInt8
  deriving DecidableEq, Repr

/-- A request as it leaves the client. -/
structure Sent (urls : Urls) where
  method : String
  url : urls.Url
  headers : List (String × String)
  body : List UInt8

/-- The answer to the last of the requests sent so far. -/
abbrev Transport (urls : Urls) := List (Sent urls) → Except String Response

section Client

variable {urls : Urls}

def originOf (url : urls.Url) : Origin :=
  ⟨(urls.scheme url).toLower, (urls.host url).toLower, urls.portOrKnownDefault url⟩

def redirectSafeHeaders : List String :=
  ["accept", "accept-encoding", "accept-language", "content-language", "content-type", "user-agent"]

def isRedirectSafeHeader (name : String) : Bool := redirectSafeHeaders.contains name.toLower

def maxRedirects : Nat := 5

/-- The method of the next hop, or `none` where the status ends the chain. -/
def redirectMethod (status : UInt16) (method : String) : Option String :=
  if status = 301 ∨ status = 302 ∨ status = 303 then
    some (if method = "GET" ∨ method = "HEAD" then method else "GET")
  else if (status = 307 ∨ status = 308) ∧ method ∈ ["GET", "HEAD", "OPTIONS", "TRACE"] then
    some method
  else
    none

def HasScheme (url : urls.Url) (scheme : String) : Prop := (urls.scheme url).toLower = scheme

instance (url : urls.Url) (scheme : String) : Decidable (HasScheme url scheme) :=
  inferInstanceAs (Decidable ((urls.scheme url).toLower = scheme))

/-- The URL of the next hop; never from `https` to `http`. -/
def redirectTarget (current : urls.Url) (location : String) : Except String String :=
  match urls.join current location with
  | .error e => .error s!"http redirect location is invalid: {e}"
  | .ok next =>
    if HasScheme current "https" ∧ HasScheme next "http" then
      .error "http redirect refused: scheme downgrade from https to http"
    else
      .ok (urls.render next)

/-- What the loop carries from hop to hop. -/
structure Hop where
  method : String
  target : String
  headers : List (String × String)
  body : List UInt8
  origin : Option Origin
  deriving DecidableEq, Repr

/-- The headers that go to a URL. -/
def Hop.headersFor (hop : Hop) (url : urls.Url) : List (String × String) :=
  if hop.origin.any (· ≠ originOf url) then
    hop.headers.filter (fun header => isRedirectSafeHeader header.1)
  else
    hop.headers

/-- The loop with the hops it may still follow, and the requests it sent. -/
def sendFrom (transport : Transport urls) :
    Nat → List (Sent urls) → Hop → List (Sent urls) × Except String Response
  | left, sent, hop =>
    match urls.parse hop.target with
    | .error e => (sent, .error s!"http request failed: {e}")
    | .ok current =>
      let headers := hop.headersFor current
      let sent := sent ++ [⟨hop.method, current, headers, hop.body⟩]
      match transport sent with
      | .error e => (sent, .error s!"http request failed: {e}")
      | .ok response =>
        match redirectMethod response.status hop.method, response.location with
        | none, _ => (sent, .ok response)
        | some _, none => (sent, .ok response)
        | some method, some location =>
          match left with
          | 0 => (sent, .error s!"http request failed: reached max redirects ({maxRedirects})")
          | left + 1 =>
            match redirectTarget current location with
            | .error e => (sent, .error e)
            | .ok target =>
              sendFrom transport left sent ⟨method, target, headers, [], some (originOf current)⟩

def sendRequest (transport : Transport urls) (method url : String)
    (headers : List (String × String)) (body : List UInt8) :
    List (Sent urls) × Except String Response :=
  sendFrom transport maxRedirects [] ⟨method, url, headers, body, none⟩

/-! ## Chains of requests -/

/-- A response that sends the loop on to another URL. -/
def Follows (last : Sent urls) (response : Response) (method target : String) : Prop :=
  redirectMethod response.status last.method = some method ∧
    ∃ location, response.location = some location ∧ redirectTarget last.url location = .ok target

/-- The requests of a chain: the caller's, then one for each followed redirect. -/
inductive Chain (transport : Transport urls) (caller : Hop) : List (Sent urls) → Prop
  | first {url : urls.Url} (hurl : urls.parse caller.target = .ok url) :
    Chain transport caller [⟨caller.method, url, caller.headers, caller.body⟩]
  | follow {sent : List (Sent urls)} {last : Sent urls} {response : Response} {method target : String}
      {url : urls.Url} (chain : Chain transport caller (sent ++ [last]))
      (hanswer : transport (sent ++ [last]) = .ok response)
      (hfollows : Follows last response method target) (hurl : urls.parse target = .ok url) :
    Chain transport caller ((sent ++ [last]) ++ [⟨method, url,
      if originOf url = originOf last.url then last.headers
      else last.headers.filter (fun header => isRedirectSafeHeader header.1), []⟩])

/-- A response the loop hands back. -/
def EndsChain (last : Sent urls) (response : Response) : Prop :=
  redirectMethod response.status last.method = none ∨ response.location = none

/-- A finished run: its requests form a chain, and it hands back the last response exactly
    where that response ends the chain. -/
structure Finished (transport : Transport urls) (caller : Hop)
    (run : List (Sent urls) × Except String Response) : Prop where
  chain : run.1 = [] ∨ Chain transport caller run.1
  answers : ∀ init last response, run.1 = init ++ [last] →
    (run.2 = .ok response ↔ transport run.1 = .ok response ∧ EndsChain last response)
  refused : run.1 = [] → ∀ response, run.2 ≠ .ok response

/-- The state before a hop: what is sent next continues the chain, and what was answered
    last does not end it. -/
structure Ready (transport : Transport urls) (caller : Hop) (sent : List (Sent urls)) (hop : Hop) :
    Prop where
  chain : sent = [] ∨ Chain transport caller sent
  next : ∀ url, urls.parse hop.target = .ok url →
    Chain transport caller (sent ++ [⟨hop.method, url, hop.headersFor url, hop.body⟩])
  follows : ∀ init last response, sent = init ++ [last] → transport sent = .ok response →
    ¬ EndsChain last response

variable {transport : Transport urls} {caller : Hop}

theorem Follows.not_endsChain {last : Sent urls} {response : Response} {method target : String}
    (h : Follows last response method target) : ¬ EndsChain last response := by
  obtain ⟨hmethod, location, hlocation, -⟩ := h
  rintro (hnone | hnone)
  · rw [hmethod] at hnone
    cases hnone
  · rw [hlocation] at hnone
    cases hnone

theorem Ready.first (caller : Hop) (horigin : caller.origin = none) :
    Ready transport caller [] caller where
  chain := .inl rfl
  next url hurl := by
    have hheaders : caller.headersFor url = caller.headers := by simp [Hop.headersFor, horigin]
    rw [List.nil_append, hheaders]
    exact Chain.first hurl
  follows init last response hnil := by simp at hnil

theorem Ready.hop {sent : List (Sent urls)} {last : Sent urls} {response : Response}
    {method target : String} (chain : Chain transport caller (sent ++ [last]))
    (hanswer : transport (sent ++ [last]) = .ok response)
    (hfollows : Follows last response method target) :
    Ready transport caller (sent ++ [last])
      ⟨method, target, last.headers, [], some (originOf last.url)⟩ where
  chain := .inr chain
  next url hurl := by
    have hheaders : Hop.headersFor ⟨method, target, last.headers, [], some (originOf last.url)⟩ url =
        if originOf url = originOf last.url then last.headers
        else last.headers.filter (fun header => isRedirectSafeHeader header.1) := by
      by_cases hsame : originOf url = originOf last.url
      · simp [Hop.headersFor, hsame]
      · have hdiff : originOf last.url ≠ originOf url := fun h => hsame h.symm
        simp [Hop.headersFor, hsame, hdiff]
    rw [hheaders]
    exact Chain.follow chain hanswer hfollows hurl
  follows init last' response' hlast hanswer' := by
    obtain ⟨-, heq⟩ := List.append_inj' hlast rfl
    obtain rfl := List.singleton_inj.mp heq
    rw [hanswer] at hanswer'
    obtain rfl := Except.ok.inj hanswer'
    exact hfollows.not_endsChain

theorem finished_of_last {sent : List (Sent urls)} {last : Sent urls}
    {answer : Except String Response} (chain : Chain transport caller (sent ++ [last]))
    (hanswer : ∀ response, answer = .ok response ↔
      transport (sent ++ [last]) = .ok response ∧ EndsChain last response) :
    Finished transport caller (sent ++ [last], answer) where
  chain := .inr chain
  answers init last' response hlast := by
    obtain ⟨-, heq⟩ := List.append_inj' hlast rfl
    obtain rfl := List.singleton_inj.mp heq
    exact hanswer response
  refused hnil := by simp at hnil

theorem finished_of_redirect {sent : List (Sent urls)} {last : Sent urls} {e : String}
    {response : Response} {method location : String} (chain : Chain transport caller (sent ++ [last]))
    (hanswer : transport (sent ++ [last]) = .ok response)
    (hmethod : redirectMethod response.status last.method = some method)
    (hlocation : response.location = some location) :
    Finished transport caller (sent ++ [last], .error e) := by
  refine finished_of_last chain (fun response' => iff_of_false nofun ?_)
  rintro ⟨hok, hends⟩
  rw [hanswer] at hok
  obtain rfl := Except.ok.inj hok
  rcases hends with hnone | hnone
  · rw [hmethod] at hnone
    cases hnone
  · rw [hlocation] at hnone
    cases hnone

theorem sendFrom_finished (left : Nat) (sent : List (Sent urls)) (hop : Hop)
    (h : Ready transport caller sent hop) :
    Finished transport caller (sendFrom transport left sent hop) := by
  fun_induction sendFrom transport left sent hop with
  | case1 left sent hop e hparse =>
    refine ⟨h.chain, fun init last response hlast => ?_, fun _ _ => nofun⟩
    refine iff_of_false nofun (fun hends => ?_)
    exact h.follows init last response hlast hends.1 hends.2
  | case2 left sent hop current hparse headers sent' e hanswer =>
    refine finished_of_last (h.next current hparse) (fun response => iff_of_false nofun ?_)
    rintro ⟨hok, -⟩
    rw [hanswer] at hok
    cases hok
  | case3 left sent hop current hparse headers sent' response hanswer hmethod =>
    refine finished_of_last (h.next current hparse) (fun response' => ?_)
    rw [hanswer]
    exact ⟨fun hok => ⟨hok, .inl (Except.ok.inj hok ▸ hmethod)⟩, fun hok => hok.1⟩
  | case4 left sent hop current hparse headers sent' response hanswer method hlocation hmethod =>
    refine finished_of_last (h.next current hparse) (fun response' => ?_)
    rw [hanswer]
    exact ⟨fun hok => ⟨hok, .inr (Except.ok.inj hok ▸ hlocation)⟩, fun hok => hok.1⟩
  | case5 sent hop current hparse headers sent' response hanswer method location hlocation hmethod =>
    exact finished_of_redirect (h.next current hparse) hanswer hmethod hlocation
  | case6 sent hop current hparse headers sent' response hanswer method location hlocation hmethod left
      e htarget =>
    exact finished_of_redirect (h.next current hparse) hanswer hmethod hlocation
  | case7 sent hop current hparse headers sent' response hanswer method location hlocation hmethod left
      target htarget ih =>
    exact ih (Ready.hop (h.next current hparse) hanswer ⟨hmethod, location, hlocation, htarget⟩)

theorem length_sendFrom_le (left : Nat) (sent : List (Sent urls)) (hop : Hop) :
    (sendFrom transport left sent hop).1.length ≤ sent.length + left + 1 := by
  have hone : ∀ (l : List (Sent urls)) (x : Sent urls) (n : Nat), (l ++ [x]).length ≤ l.length + n + 1 :=
    fun l x n => by simp
  fun_induction sendFrom transport left sent hop with
  | case1 left sent hop => exact Nat.le_add_right _ (left + 1)
  | case2 left sent hop => exact hone sent _ left
  | case3 left sent hop => exact hone sent _ left
  | case4 left sent hop => exact hone sent _ left
  | case5 sent hop => exact hone sent _ 0
  | case6 sent hop current hparse headers sent' response hanswer method location hlocation hmethod left =>
    exact hone sent _ (left + 1)
  | case7 sent hop current hparse headers sent' response hanswer method location hlocation hmethod left
      target htarget ih =>
    simp only [sent', List.length_append, List.length_singleton] at ih ⊢
    omega

/-! ## What every chain keeps to -/

theorem getElem?_concat_cases {α : Type} {l : List α} {x b : α} {j : Nat}
    (h : (l ++ [x])[j]? = some b) : l[j]? = some b ∨ j = l.length ∧ b = x := by
  rcases Nat.lt_trichotomy j l.length with hlt | rfl | hgt
  · rw [List.getElem?_append_left hlt] at h
    exact .inl h
  · rw [List.getElem?_concat_length] at h
    exact .inr ⟨rfl, (Option.some.inj h).symm⟩
  · rw [List.getElem?_eq_none (by simp; omega)] at h
    cases h

theorem Chain.first_request {sent : List (Sent urls)} (chain : Chain transport caller sent)
    {first : Sent urls} (hfirst : sent[0]? = some first) :
    first.headers = caller.headers ∧ first.body = caller.body := by
  induction chain with
  | first hurl =>
    obtain rfl := Option.some.inj hfirst
    exact ⟨rfl, rfl⟩
  | follow chain hanswer hfollows hurl ih =>
    rw [List.getElem?_append_left (by simp)] at hfirst
    exact ih hfirst

theorem Chain.body {sent : List (Sent urls)} (chain : Chain transport caller sent) {j : Nat}
    {b : Sent urls} (hj : 0 < j) (hb : sent[j]? = some b) : b.body = [] := by
  induction chain with
  | first hurl =>
    rw [List.getElem?_eq_none (by simp; omega)] at hb
    cases hb
  | follow chain hanswer hfollows hurl ih =>
    rcases getElem?_concat_cases hb with hbefore | ⟨-, rfl⟩
    · exact ih hbefore
    · rfl

/-- Requests before the last of a chain were answered by a followed redirect. -/
theorem Chain.follows {sent : List (Sent urls)} (chain : Chain transport caller sent) {j : Nat}
    {a b : Sent urls} (ha : sent[j]? = some a) (hb : sent[j + 1]? = some b) :
    ∃ response target, transport (sent.take (j + 1)) = .ok response ∧
      Follows a response b.method target ∧ urls.parse target = .ok b.url := by
  induction chain with
  | first hurl => simp at hb
  | @follow sent last response method target url chain hanswer hfollows hurl ih =>
    have hlt : ∀ {c : Sent urls}, (sent ++ [last])[j]? = some c → j + 1 ≤ (sent ++ [last]).length :=
      fun h => (List.getElem?_eq_some_iff.mp h).1
    rcases getElem?_concat_cases hb with hbefore | ⟨hlast, rfl⟩
    · have hj : j < (sent ++ [last]).length := by
        have := (List.getElem?_eq_some_iff.mp hbefore).1
        omega
      rw [List.getElem?_append_left hj] at ha
      rw [List.take_append_of_le_length (hlt ha)]
      exact ih ha hbefore
    · have hj : j = sent.length := by simpa using hlast
      subst hj
      rw [List.getElem?_append_left (by simp), List.getElem?_concat_length] at ha
      obtain rfl := Option.some.inj ha
      refine ⟨response, target, ?_, hfollows, hurl⟩
      rwa [List.take_append_of_le_length (by simp), List.take_of_length_le (by simp)]

/-- The headers of a request are the caller's; one off the safe list was sent to the first
    origin only. -/
theorem Chain.headers {sent : List (Sent urls)} (chain : Chain transport caller sent) {j : Nat}
    {b first : Sent urls} (hb : sent[j]? = some b) (hfirst : sent[0]? = some first)
    {header : String × String} (hheader : header ∈ b.headers) :
    header ∈ caller.headers ∧ (isRedirectSafeHeader header.1 = false →
      ∀ i a, i ≤ j → sent[i]? = some a → originOf a.url = originOf first.url) := by
  induction chain generalizing j b with
  | first hurl =>
    rcases getElem?_concat_cases (l := []) hb with hnone | ⟨rfl, rfl⟩
    · cases hnone
    · refine ⟨hheader, fun _ i a hi ha => ?_⟩
      obtain rfl := Nat.le_zero.mp hi
      rw [hfirst] at ha
      rw [Option.some.inj ha]
  | @follow sent last response method target url chain hanswer hfollows hurl ih =>
    rw [List.getElem?_append_left (by simp)] at hfirst
    rcases getElem?_concat_cases hb with hbefore | ⟨hj, rfl⟩
    · have hlt := (List.getElem?_eq_some_iff.mp hbefore).1
      obtain ⟨hcaller, horigin⟩ := ih hbefore hfirst hheader
      refine ⟨hcaller, fun hmutating i a hi ha => horigin hmutating i a hi ?_⟩
      rwa [List.getElem?_append_left (by omega)] at ha
    · have hlast : (sent ++ [last])[sent.length]? = some last := List.getElem?_concat_length
      by_cases hsame : originOf url = originOf last.url
      · -- the origin of the hop before: nothing was dropped
        simp only [if_pos hsame] at hheader
        obtain ⟨hcaller, horigin⟩ := ih hlast hfirst hheader
        refine ⟨hcaller, fun hmutating i a hi ha => ?_⟩
        rcases getElem?_concat_cases ha with hbefore | ⟨-, rfl⟩
        · have hlt := (List.getElem?_eq_some_iff.mp hbefore).1
          simp only [List.length_append, List.length_singleton] at hlt
          exact horigin hmutating i a (by omega) hbefore
        · rw [hsame]
          exact horigin hmutating sent.length last le_rfl hlast
      · simp only [if_neg hsame] at hheader
        obtain ⟨hmem, hsafe⟩ := List.mem_filter.mp hheader
        refine ⟨(ih hlast hfirst hmem).1, fun hmutating => ?_⟩
        rw [hmutating] at hsafe
        cases hsafe

theorem Chain.schemes (hrender : ∀ url, urls.parse (urls.render url) = .ok url)
    (hserves : ∀ sent last response, transport (sent ++ [last]) = .ok response →
      HasScheme last.url "http" ∨ HasScheme last.url "https")
    {sent : List (Sent urls)} (chain : Chain transport caller sent) {i j : Nat} {a b : Sent urls}
    (hij : i < j) (ha : sent[i]? = some a) (hb : sent[j]? = some b)
    (hhttps : HasScheme a.url "https") : ¬ HasScheme b.url "http" := by
  induction chain generalizing i j a b with
  | first hurl =>
    rw [List.getElem?_eq_none (by simp; omega)] at hb
    cases hb
  | @follow sent last response method target url chain hanswer hfollows hurl ih =>
    rcases getElem?_concat_cases hb with hbefore | ⟨hj, rfl⟩
    · have hlt := (List.getElem?_eq_some_iff.mp hbefore).1
      rw [List.getElem?_append_left (by omega)] at ha
      exact ih hij ha hbefore hhttps
    · rw [List.getElem?_append_left (by omega)] at ha
      have hlast : (sent ++ [last])[sent.length]? = some last := List.getElem?_concat_length
      -- the last request went over `https` as well, since it was answered
      have hlastHttps : HasScheme last.url "https" := by
        rcases getElem?_concat_cases ha with hbefore | ⟨-, rfl⟩
        · have hlt := (List.getElem?_eq_some_iff.mp hbefore).1
          exact (hserves sent last response hanswer).resolve_left (ih hlt ha hlast hhttps)
        · exact hhttps
      obtain ⟨-, location, -, htarget⟩ := hfollows
      unfold redirectTarget at htarget
      cases hjoin : urls.join last.url location with
      | error e =>
        rw [hjoin] at htarget
        cases htarget
      | ok next =>
        rw [hjoin] at htarget
        by_cases hdown : HasScheme last.url "https" ∧ HasScheme next "http"
        · simp only [if_pos hdown] at htarget
          cases htarget
        · simp only [if_neg hdown, Except.ok.injEq] at htarget
          rw [← htarget, hrender] at hurl
          obtain rfl := Except.ok.inj hurl
          exact fun hhttp => hdown ⟨hlastHttps, hhttp⟩

/-- What a run of the client promises its caller. -/
structure KeepsCredentials (transport : Transport urls) (headers : List (String × String))
    (body : List UInt8) (sent : List (Sent urls)) (answer : Except String Response) : Prop where
  atMostSix : sent.length ≤ 6
  noDowngrade : ∀ (i j : Nat) (a b : Sent urls), i < j → sent[i]? = some a → sent[j]? = some b →
    HasScheme a.url "https" → ¬ HasScheme b.url "http"
  callerHeaders : ∀ (j : Nat) (b first : Sent urls), sent[j]? = some b → sent[0]? = some first →
    ∀ header ∈ b.headers,
    header ∈ headers ∧ (isRedirectSafeHeader header.1 = false →
      ∀ (i : Nat) (a : Sent urls), i ≤ j → sent[i]? = some a → originOf a.url = originOf first.url)
  firstBody : ∀ first, sent[0]? = some first → first.body = body
  noLaterBody : ∀ (j : Nat) (b : Sent urls), 0 < j → sent[j]? = some b → b.body = []
  followed : ∀ (j : Nat) (a b : Sent urls), sent[j]? = some a → sent[j + 1]? = some b →
    ∃ response target, transport (sent.take (j + 1)) = .ok response ∧
      Follows a response b.method target ∧ urls.parse target = .ok b.url
  answered : ∀ init last response, sent = init ++ [last] →
    (answer = .ok response ↔ transport sent = .ok response ∧ EndsChain last response)

/-- At most six requests, no `http` after `https`, headers off the safe list for the first
    origin only, the body once, and a stop at the first response that is no followed redirect. -/
theorem sendRequest_keepsCredentials
    (hrender : ∀ url, urls.parse (urls.render url) = .ok url)
    (hserves : ∀ sent last response, transport (sent ++ [last]) = .ok response →
      HasScheme last.url "http" ∨ HasScheme last.url "https")
    (method url : String) (headers : List (String × String)) (body : List UInt8) :
    KeepsCredentials transport headers body (sendRequest transport method url headers body).1
      (sendRequest transport method url headers body).2 := by
  have hfinished := @sendFrom_finished _ transport _ maxRedirects []
    ⟨method, url, headers, body, none⟩ (Ready.first _ rfl)
  have hlength := @length_sendFrom_le _ transport maxRedirects []
    ⟨method, url, headers, body, none⟩
  have hchain : ∀ {j : Nat} {b : Sent urls}, (sendRequest transport method url headers body).1[j]? = some b →
      Chain transport ⟨method, url, headers, body, none⟩
        (sendRequest transport method url headers body).1 := by
    intro j b hb
    refine hfinished.chain.resolve_left (fun hnil => ?_)
    rw [sendRequest, hnil] at hb
    cases hb
  exact {
    atMostSix := hlength
    noDowngrade := fun i j a b hij ha hb hhttps => (hchain ha).schemes hrender hserves hij ha hb hhttps
    callerHeaders := fun j b first hb hfirst header hheader => (hchain hb).headers hb hfirst hheader
    firstBody := fun first hfirst => ((hchain hfirst).first_request hfirst).2
    noLaterBody := fun j b hj hb => (hchain hb).body hj hb
    followed := fun j a b ha hb => (hchain ha).follows ha hb
    answered := hfinished.answers }

end Client

/-! ## A shop that sends its customers to another host -/

inductive SampleUrl where
  | shop
  | cdn
  deriving DecidableEq, Repr

def SampleUrl.render : SampleUrl → String
  | .shop => "https://shop.example/"
  | .cdn => "https://cdn.example/a"

def sampleUrls : Urls where
  Url := SampleUrl
  parse text :=
    if text = "https://shop.example/" then .ok .shop
    else if text = "https://cdn.example/a" then .ok .cdn
    else .error "unknown url"
  join _ location :=
    if location = "https://cdn.example/a" then .ok .cdn else .error "unknown url"
  render := SampleUrl.render
  scheme _ := "https"
  host
    | .shop => "shop.example"
    | .cdn => "cdn.example"
  portOrKnownDefault _ := some 443

/-- The shop redirects, the other host answers. -/
def sampleTransport : Transport sampleUrls := fun sent =>
  match sent.getLast? with
  | none => .error "no request"
  | some ⟨_, SampleUrl.shop, _, _⟩ => .ok ⟨302, some "https://cdn.example/a", []⟩
  | some ⟨_, SampleUrl.cdn, _, _⟩ => .ok ⟨200, none, [104, 105]⟩

theorem sampleUrls_https (url : sampleUrls.Url) : HasScheme url "https" := by
  have hlower : "https".toLower = "https" := by decide +kernel
  exact hlower

theorem sendRequest_keepsCredentials_shop :
    KeepsCredentials sampleTransport [("x-api-key", "k"), ("accept", "text/html")] [1]
      (sendRequest sampleTransport "POST" "https://shop.example/"
        [("x-api-key", "k"), ("accept", "text/html")] [1]).1
      (sendRequest sampleTransport "POST" "https://shop.example/"
        [("x-api-key", "k"), ("accept", "text/html")] [1]).2 :=
  sendRequest_keepsCredentials
    (by
      intro url
      cases url
      · rfl
      · rfl)
    (fun _ last _ _ => .inr (sampleUrls_https last.url)) _ _ _ _

end FaberHosts.Http
