import CloudGaming.Async.Along
import CloudGaming.Signaling.Schema
/-!
# TurnServers — the TURN credentials of the matchmaker, their cache and the one request for them

`getIceServers` answers from its cache, joins the request that is under way, or starts one: a credential is made, and the
servers are fetched with it.  Every call that waits gets what the request comes to.  The calls are numbered.
-/
namespace CloudGaming
namespace Market
namespace TurnServers

open Async
open Signaling (Json Check)

/-! ## The schema of a server -/

/-- `\s`. -/
def isSpace (c : Char) : Bool :=
  (9 ≤ c.toNat && c.toNat ≤ 13) || (8192 ≤ c.toNat && c.toNat ≤ 8202) ||
    [32, 160, 5760, 8232, 8233, 8239, 8287, 12288, 65279].contains c.toNat

/-- `/^(?:stun|stuns|turn|turns):[^\s]+$/i`. -/
def isIceUrl (s : String) : Bool :=
  ["stun:", "stuns:", "turn:", "turns:"].any fun scheme =>
    (s.toList.take scheme.length).map Char.toLower = scheme.toList && s.toList.length > scheme.length &&
      (s.toList.drop scheme.length).all fun c => !isSpace c

def urls : Json → Option (List String)
  | .str s => if Check.string 1 2048 (.str s) then some [s] else none
  | .arr items =>
    if 1 ≤ items.length ∧ items.length ≤ 8 ∧ items.all (Check.string 1 2048) then items.mapM Json.str? else none
  | _ => none

def IceServerSchema : Check := fun server =>
  Check.strict [("urls", Check.required fun j => (urls j).isSome), ("username", Check.optional (Check.string 0 1024)),
    ("credential", Check.optional (Check.string 0 4096)),
    ("credentialType", Check.optional (Check.enum ["password"]))] server &&
  (((server.field? "urls").bind urls).getD []).all isIceUrl

/-- What a condition makes of a value. -/
def truthy : Json → Bool
  | .null => false
  | .bool b => b
  | .num q => q ≠ 0
  | .str s => s ≠ ""
  | .arr _ | .obj _ => true

/-! ## The cache and the request -/

/-- The expiry is within the bounds of the configuration's schema. -/
structure Config where
  production : Bool
  -- the domain and the key of the service are set
  metered : Bool
  expirySeconds : Nat
  inBounds : 300 ≤ expirySeconds ∧ expirySeconds ≤ 3600

def Config.cacheMs (cfg : Config) : Nat := max 30 (min 600 (cfg.expirySeconds - 60)) * 1000

/-- The servers of one exchange with the service; `made` is when the service made the credential, `ended` when the servers
were there. -/
structure Servers where
  list : List Json
  made : Nat
  ended : Nat

inductive Answer where
  | servers (x : Servers)
  | nothing
  | threw

/-- `iceServerRequest`. -/
inductive Request where
  | creating (began : Nat)
  | fetching (began made : Nat)
  -- settled; the call that made it has not set it to `null` yet
  | settled (answer : Answer)

structure Answered where
  call : Nat
  time : Nat
  answer : Answer

structure Exchange where
  began : Nat
  ended : Nat
  got : Option Servers

/-- `answered` and `exchanges` are history. -/
structure State where
  now : Nat := 0
  iceServerCache : Option Servers := none
  iceServerCacheExpiresAt : Nat := 0
  iceServerRequest : Option Request := none
  calls : Nat := 0
  waiting : List Nat := []
  answered : List Answered := []
  exchanges : List Exchange := []

/-- `none` as an answer of the service is a rejection of `fetchJson`. -/
inductive Move where
  | tick (ms : Nat)
  | getIceServers
  | created (made : Nat) (answer : Option Json)
  | fetched (answer : Option Json)
  | release

section
variable (cfg : Config)

def failure : Answer := if cfg.production then .threw else .nothing

namespace State

variable (s : State)

def reply (answer : Answer) : State := { s with
  calls := s.calls + 1
  answered := s.answered ++ [⟨s.calls, s.now, answer⟩] }

def wait (request : Request) : State := { s with
  calls := s.calls + 1
  iceServerRequest := some request
  waiting := s.waiting ++ [s.calls] }

/-- The request settles, and those who wait for it have its answer. -/
def settle (began : Nat) (got : Option Servers) : State :=
  let answer := got.elim (failure cfg) .servers
  { s with
    iceServerRequest := some (.settled answer)
    waiting := []
    answered := s.answered ++ s.waiting.map fun call => ⟨call, s.now, answer⟩
    exchanges := s.exchanges ++ [⟨began, s.now, got⟩] }

def getIceServers : State :=
  if !cfg.metered then s.reply (failure cfg)
  else
    match s.iceServerCache.filter fun _ => s.now < s.iceServerCacheExpiresAt with
    | some cached => s.reply (.servers cached)
    | none =>
      match s.iceServerRequest with
      | some (.settled answer) => s.reply answer
      | some request => s.wait request
      | none => s.wait (.creating s.now)

def created (began made : Nat) (answer : Option Json) : State :=
  if (answer.bind (·.field? "apiKey")).any truthy then { s with iceServerRequest := some (.fetching began made) }
  else s.settle cfg began none

def fetched (began made : Nat) (answer : Option Json) : State :=
  match answer with
  | some (.arr items) =>
    if 1 ≤ items.length ∧ items.length ≤ 8 ∧ items.all IceServerSchema then
      { s.settle cfg began (some ⟨items, made, s.now⟩) with
        iceServerCache := some ⟨items, made, s.now⟩
        iceServerCacheExpiresAt := s.now + cfg.cacheMs }
    else s.settle cfg began none
  | _ => s.settle cfg began none

end State

/-- The service makes a credential between the request and its answer; what follows a settled request follows at once. -/
def step (s : State) : Move → Option State
  | .tick ms =>
    match s.iceServerRequest with
    | some (.settled _) => none
    | _ => some { s with now := s.now + ms }
  | .getIceServers => some (s.getIceServers cfg)
  | .created made answer =>
    match s.iceServerRequest with
    | some (.creating began) => if began ≤ made ∧ made ≤ s.now then some (s.created cfg began made answer) else none
    | _ => none
  | .fetched answer =>
    match s.iceServerRequest with
    | some (.fetching began made) => some (s.fetched cfg began made answer)
    | _ => none
  | .release =>
    match s.iceServerRequest with
    | some (.settled _) => some { s with iceServerRequest := none }
    | _ => none

/-! ## What the calls are answered -/

/-- The servers are well formed, and those of an exchange. -/
structure Proper (exchanges : List Exchange) (x : Servers) : Prop where
  count : 1 ≤ x.list.length ∧ x.list.length ≤ 8
  valid : ∀ server ∈ x.list, IceServerSchema server = true
  exchanged : ∃ e ∈ exchanges, e.got = some x ∧ e.ended = x.ended ∧ e.began ≤ x.made
  made_le : x.made ≤ x.ended

/-- An answer without servers is due to a failed exchange, or there is no service. -/
def Excused (exchanges : List Exchange) (time : Nat) : Prop :=
  cfg.metered = false ∨ ∃ e ∈ exchanges, e.got = none ∧ e.ended = time

/-- An answer at a time. -/
def Due (exchanges : List Exchange) (time : Nat) : Answer → Prop
  | .servers x => Proper exchanges x ∧ x.ended ≤ time ∧ time < x.ended + cfg.cacheMs
  | .nothing => cfg.production = false ∧ Excused cfg exchanges time
  | .threw => cfg.production = true ∧ Excused cfg exchanges time

/-- One exchange comes after the other, and after a success none begins while its servers are cached. -/
def Apart (a b : Exchange) : Prop := a.ended ≤ b.began ∧ (a.got ≠ none → a.ended + cfg.cacheMs ≤ b.began)

/-- When the request began, while the service has not answered. -/
def Request.began : Request → Option Nat
  | .creating began => some began
  | .fetching began _ => some began
  | .settled _ => none

structure Sound (s : State) : Prop where
  due : ∀ a ∈ s.answered, Due cfg s.exchanges a.time a.answer
  -- an exchange that took no more than a minute gives credentials that are valid when they are handed out
  alive : ∀ a ∈ s.answered, ∀ x, a.answer = .servers x → x.ended ≤ x.made + 60000 →
    a.time < x.made + cfg.expirySeconds * 1000
  apart : s.exchanges.Pairwise (Apart cfg)
  once : (s.answered.map Answered.call ++ s.waiting).Perm (List.range s.calls)
  awaited : s.waiting ≠ [] → ∃ r, s.iceServerRequest = some r ∧ r.began ≠ none

structure Inv (s : State) : Prop where
  due : ∀ a ∈ s.answered, Due cfg s.exchanges a.time a.answer
  apart : s.exchanges.Pairwise (Apart cfg)
  once : (s.answered.map Answered.call ++ s.waiting).Perm (List.range s.calls)
  awaited : s.waiting ≠ [] → ∃ r, s.iceServerRequest = some r ∧ r.began ≠ none
  ended : ∀ e ∈ s.exchanges, e.ended ≤ s.now
  cached : ∀ x, s.iceServerCache = some x → Proper s.exchanges x ∧ x.ended ≤ s.now ∧
    s.iceServerCacheExpiresAt = x.ended + cfg.cacheMs
  covered : ∀ e ∈ s.exchanges, e.got ≠ none →
    s.iceServerCache ≠ none ∧ e.ended + cfg.cacheMs ≤ s.iceServerCacheExpiresAt
  underWay : ∀ r ∈ s.iceServerRequest, ∀ began ∈ r.began, began ≤ s.now ∧
    ∀ e ∈ s.exchanges, e.ended ≤ began ∧ (e.got ≠ none → e.ended + cfg.cacheMs ≤ began)
  made : ∀ began made, s.iceServerRequest = some (.fetching began made) → began ≤ made ∧ made ≤ s.now
  settled : ∀ answer, s.iceServerRequest = some (.settled answer) → Due cfg s.exchanges s.now answer

variable {cfg} {s s' : State}

theorem Config.cacheMs_le (cfg : Config) : cfg.cacheMs + 60000 ≤ cfg.expirySeconds * 1000 ∧ 0 < cfg.cacheMs := by
  have := cfg.inBounds
  unfold Config.cacheMs
  omega

theorem Inv.sound (h : Inv cfg s) : Sound cfg s where
  due := h.due
  alive a ha x hx hshort := by
    have hdue := h.due a ha
    rw [hx] at hdue
    have := cfg.cacheMs_le.1
    have := hdue.2.2
    omega
  apart := h.apart
  once := h.once
  awaited := h.awaited

theorem inv_start (now : Nat) : Inv cfg { now } := by
  constructor <;> simp

theorem Proper.mono {es es' : List Exchange} (hsub : es ⊆ es') {x : Servers} (h : Proper es x) : Proper es' x where
  count := h.count
  valid := h.valid
  exchanged := by
    obtain ⟨e, he, hx⟩ := h.exchanged
    exact ⟨e, hsub he, hx⟩
  made_le := h.made_le

theorem Due.mono {es es' : List Exchange} (hsub : es ⊆ es') {time : Nat} {answer : Answer} (h : Due cfg es time answer) :
    Due cfg es' time answer := by
  have hexcused : Excused cfg es time → Excused cfg es' time := by
    rintro (hm | ⟨e, he, hx⟩)
    · exact .inl hm
    · exact .inr ⟨e, hsub he, hx⟩
  cases answer with
  | servers x => exact ⟨h.1.mono hsub, h.2⟩
  | nothing => exact ⟨h.1, hexcused h.2⟩
  | threw => exact ⟨h.1, hexcused h.2⟩

/-- A failure is due where it is excused. -/
theorem due_failure {es : List Exchange} {time : Nat} (h : Excused cfg es time) : Due cfg es time (failure cfg) := by
  unfold failure
  cases hp : cfg.production with
  | true => exact ⟨hp, h⟩
  | false => exact ⟨hp, h⟩

theorem Inv.reply (h : Inv cfg s) {answer : Answer} (hdue : Due cfg s.exchanges s.now answer) :
    Inv cfg (s.reply answer) where
  due a ha := by
    rcases List.mem_append.1 ha with ha | ha
    · exact h.due a ha
    · rw [List.mem_singleton.1 ha]
      exact hdue
  apart := h.apart
  once := by
    simp only [State.reply, List.map_append, List.map_cons, List.map_nil, List.range_succ]
    have : (s.answered.map Answered.call ++ [s.calls] ++ s.waiting).Perm
        (s.answered.map Answered.call ++ s.waiting ++ [s.calls]) := by
      rw [List.append_assoc, List.append_assoc]
      exact List.Perm.append_left _ List.perm_append_comm
    exact this.trans (h.once.append_right _)
  awaited := h.awaited
  ended := h.ended
  cached := h.cached
  covered := h.covered
  underWay := h.underWay
  made := h.made
  settled := h.settled

theorem Inv.wait (h : Inv cfg s) {request : Request}
    (hunder : ∀ began ∈ request.began, began ≤ s.now ∧
      ∀ e ∈ s.exchanges, e.ended ≤ began ∧ (e.got ≠ none → e.ended + cfg.cacheMs ≤ began))
    (hmade : ∀ began made, request = .fetching began made → began ≤ made ∧ made ≤ s.now)
    (hopen : request.began ≠ none) : Inv cfg (s.wait request) where
  due := h.due
  apart := h.apart
  once := by
    simp only [State.wait, List.range_succ, ← List.append_assoc]
    exact h.once.append_right _
  awaited _ := ⟨request, rfl, hopen⟩
  ended := h.ended
  cached := h.cached
  covered := h.covered
  underWay r hr := by
    obtain rfl := Option.some.inj hr
    exact hunder
  made began made hr := hmade began made (Option.some.inj hr)
  settled answer hr := by
    rw [Option.some.inj hr] at hopen
    exact absurd rfl hopen

/-- No exchange that succeeded is recent, where the cache does not answer. -/
theorem Inv.expired (h : Inv cfg s) (hc : s.iceServerCache.filter (fun _ => s.now < s.iceServerCacheExpiresAt) = none) :
    ∀ e ∈ s.exchanges, e.got ≠ none → e.ended + cfg.cacheMs ≤ s.now := by
  intro e he hgot
  obtain ⟨hne, hle⟩ := h.covered e he hgot
  obtain ⟨x, hx⟩ := Option.ne_none_iff_exists'.1 hne
  rw [hx] at hc
  have : ¬s.now < s.iceServerCacheExpiresAt := by simpa using hc
  omega

theorem Inv.getIceServers (h : Inv cfg s) : Inv cfg (s.getIceServers cfg) := by
  unfold State.getIceServers
  split
  · rename_i hm
    exact h.reply (due_failure (.inl (by simpa using hm)))
  · split
    · rename_i cached hc
      obtain ⟨hcached, hfresh⟩ := Option.filter_eq_some_iff.1 hc
      obtain ⟨hproper, hended, hexpires⟩ := h.cached cached hcached
      exact h.reply ⟨hproper, hended, by simpa [hexpires] using hfresh⟩
    · rename_i hc
      split
      · rename_i answer hr
        exact h.reply (h.settled answer hr)
      · rename_i request hnot hr
        refine h.wait (h.underWay request hr) (fun began made he => h.made began made (he ▸ hr)) fun hnone => ?_
        cases request with
        | settled answer => exact hnot answer rfl
        | _ => cases hnone
      · refine h.wait (fun began hb => ?_) nofun nofun
        obtain rfl := Option.some.inj hb
        exact ⟨Nat.le_refl _, fun e he => ⟨h.ended e he, h.expired hc e he⟩⟩

/-- The request of `began` settles, with the cache as `cache` until `expires`. -/
theorem Inv.settle (h : Inv cfg s) {request : Request} (hr : s.iceServerRequest = some request) {began : Nat}
    (hb : request.began = some began) {got cache : Option Servers} {expires : Nat}
    (hdue : Due cfg (s.exchanges ++ [⟨began, s.now, got⟩]) s.now (got.elim (failure cfg) .servers))
    (hcached : ∀ x, cache = some x → Proper (s.exchanges ++ [⟨began, s.now, got⟩]) x ∧ x.ended ≤ s.now ∧
      expires = x.ended + cfg.cacheMs)
    (hcovered : ∀ e ∈ s.exchanges ++ [⟨began, s.now, got⟩], e.got ≠ none →
      cache ≠ none ∧ e.ended + cfg.cacheMs ≤ expires) :
    Inv cfg { s.settle cfg began got with iceServerCache := cache, iceServerCacheExpiresAt := expires } where
  due a ha := by
    rcases List.mem_append.1 ha with ha | ha
    · exact (h.due a ha).mono (List.subset_append_left _ _)
    · obtain ⟨call, -, rfl⟩ := List.mem_map.1 ha
      exact hdue
  apart := by
    refine List.pairwise_append.2 ⟨h.apart, List.pairwise_singleton _ _, fun e he e' he' => ?_⟩
    rw [List.mem_singleton.1 he']
    exact (h.underWay request hr began hb).2 e he
  once := by
    simpa [State.settle, Function.comp_def] using h.once
  awaited hw := absurd rfl hw
  ended e he := by
    rcases List.mem_append.1 he with he | he
    · exact h.ended e he
    · rw [List.mem_singleton.1 he]
      exact Nat.le_refl _
  cached := hcached
  covered := hcovered
  underWay r hr' began' hb' := by
    obtain rfl := Option.some.inj hr'
    cases hb'
  made := nofun
  settled answer ha := by
    obtain rfl := Request.settled.inj (Option.some.inj ha)
    exact hdue

theorem Inv.failed (h : Inv cfg s) {request : Request} (hr : s.iceServerRequest = some request) {began : Nat}
    (hb : request.began = some began) : Inv cfg (s.settle cfg began none) := by
  have hlast : (⟨began, s.now, none⟩ : Exchange) ∈ s.exchanges ++ [⟨began, s.now, none⟩] := by simp
  refine h.settle hr hb (due_failure (.inr ⟨_, hlast, rfl, rfl⟩)) (fun x hx => ?_) (fun e he hgot => ?_)
  · obtain ⟨hproper, hrest⟩ := h.cached x hx
    exact ⟨hproper.mono (List.subset_append_left _ _), hrest⟩
  · rcases List.mem_append.1 he with he | he
    · exact h.covered e he hgot
    · rw [List.mem_singleton.1 he] at hgot
      exact absurd rfl hgot

theorem Inv.created (h : Inv cfg s) {began made : Nat} (hr : s.iceServerRequest = some (.creating began))
    (hmade : began ≤ made ∧ made ≤ s.now) (answer : Option Json) : Inv cfg (s.created cfg began made answer) := by
  unfold State.created
  split
  · refine ⟨h.due, h.apart, h.once, fun _ => ⟨_, rfl, nofun⟩, h.ended, h.cached, h.covered, fun r hr' b hb => ?_,
      fun b m hr' => ?_, nofun⟩
    · obtain rfl := Option.some.inj hr'
      exact h.underWay _ hr b hb
    · obtain ⟨rfl, rfl⟩ := Request.fetching.inj (Option.some.inj hr')
      exact hmade
  · exact h.failed hr rfl

theorem Inv.fetched (h : Inv cfg s) {began made : Nat} (hr : s.iceServerRequest = some (.fetching began made))
    (answer : Option Json) : Inv cfg (s.fetched cfg began made answer) := by
  unfold State.fetched
  split
  · rename_i items
    split
    · rename_i hitems
      obtain ⟨hbegan, hnow⟩ := h.made began made hr
      have hproper : Proper (s.exchanges ++ [⟨began, s.now, some ⟨items, made, s.now⟩⟩]) ⟨items, made, s.now⟩ :=
        ⟨⟨hitems.1, hitems.2.1⟩, List.all_eq_true.1 hitems.2.2, ⟨_, List.mem_concat_self, rfl, rfl, hbegan⟩, hnow⟩
      refine h.settle hr rfl ⟨hproper, Nat.le_refl _, by have := cfg.cacheMs_le.2; simp only; omega⟩ (fun x hx => ?_)
        (fun e he _ => ⟨nofun, ?_⟩)
      · obtain rfl := Option.some.inj hx
        exact ⟨hproper, Nat.le_refl _, rfl⟩
      · rcases List.mem_append.1 he with he | he
        · exact Nat.add_le_add_right (h.ended e he) _
        · rw [List.mem_singleton.1 he]
    · exact h.failed hr rfl
  · exact h.failed hr rfl

theorem Inv.tick (h : Inv cfg s) (ms : Nat) (hr : ∀ answer, s.iceServerRequest ≠ some (.settled answer)) :
    Inv cfg { s with now := s.now + ms } where
  due := h.due
  apart := h.apart
  once := h.once
  awaited := h.awaited
  ended e he := Nat.le_add_right_of_le (h.ended e he)
  cached x hx := by
    obtain ⟨hproper, hended, hexpires⟩ := h.cached x hx
    exact ⟨hproper, Nat.le_add_right_of_le hended, hexpires⟩
  covered := h.covered
  underWay r hr began hb := by
    obtain ⟨hle, hrest⟩ := h.underWay r hr began hb
    exact ⟨Nat.le_add_right_of_le hle, hrest⟩
  made began made hf := by
    obtain ⟨hle, hnow⟩ := h.made began made hf
    exact ⟨hle, Nat.le_add_right_of_le hnow⟩
  settled answer ha := absurd ha (hr answer)

theorem Inv.release (h : Inv cfg s) {answer : Answer} (hr : s.iceServerRequest = some (.settled answer)) :
    Inv cfg { s with iceServerRequest := none } := by
  refine ⟨h.due, h.apart, h.once, fun hw => ?_, h.ended, h.cached, h.covered, nofun, nofun, nofun⟩
  obtain ⟨r, hr', hopen⟩ := h.awaited hw
  rw [hr] at hr'
  exact absurd rfl (Option.some.inj hr' ▸ hopen)

theorem Inv.step {m : Move} (h : Inv cfg s) (hs : TurnServers.step cfg s m = some s') : Inv cfg s' := by
  cases m with
  | tick ms =>
    simp only [TurnServers.step] at hs
    split at hs
    · cases hs
    · rename_i hnot
      exact Option.some.inj hs ▸ h.tick ms fun answer ha => hnot answer ha
  | getIceServers => exact Option.some.inj hs ▸ h.getIceServers
  | created made answer =>
    simp only [TurnServers.step] at hs
    split at hs
    · rename_i began hr
      split at hs
      · rename_i hmade
        exact Option.some.inj hs ▸ h.created hr hmade answer
      · cases hs
    · cases hs
  | fetched answer =>
    simp only [TurnServers.step] at hs
    split at hs
    · rename_i began made hr
      exact Option.some.inj hs ▸ h.fetched hr answer
    · cases hs
  | release =>
    simp only [TurnServers.step] at hs
    split at hs
    · rename_i hr
      exact Option.some.inj hs ▸ h.release hr
    · cases hs

end

/-- **Whatever the calls, the answers of the service and the clock do**, every call waits for a request that is
under way or is answered, once: with the well-formed servers of one exchange, fetched less than the cache time ago, or
with the failure of an exchange that ended then.  Exchanges never overlap, and after one that succeeded none begins until
its servers leave the cache. -/
theorem turn_servers_sound (cfg : Config) (now : Nat) (moves : List Move) :
    Throughout (step cfg) (Sound cfg) { now } moves :=
  (Throughout.of_along (fun _ _ _ h _ hs => h.step hs) (inv_start now) along_true).mono fun _ h => h.sound

end TurnServers
end Market
end CloudGaming
