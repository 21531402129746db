import CloudGaming.Async.Along
import CloudGaming.Market.System
import Mathlib.Data.Set.Card
/-!
# Catalogue — the games on offer, and the idle hosts of each

The idle set of a game is an index of the host records: presences, claims and releases keep it up to date, the catalogue
counts its members and removes the stale ones.  A presence finds the old memberships of its host in the record stored
before, so those of a record that has expired stay.
-/
namespace CloudGaming
namespace Market

open Async Redis

/-! ## GET /api/v1/games -/

/-- `games?.some(p)` on a record that was read back; `none` throws.  The scripts encode an empty list of games as `{}`,
which has no `some`. -/
def HostRecord.someGame (r : HostRecord) (p : Game → Bool) : Option Bool :=
  if r.games.isEmpty then none else some (r.games.any p)

structure Listing where
  id : GameId
  source : GameSource
  title : String
  availableHosts : Nat

structure CatalogueResponse where
  status : Nat
  games : List Listing := []

namespace World

/-- Whether the record of a member offers the game; one without a record does not. -/
def offering (w : World) (g : GameId) (h : HostId) : Option Bool :=
  match w.host h with
  | none => some false
  | some r => r.someGame fun game => game.enabled && game.id = g

def available (w : World) (g : GameId) (h : HostId) : Bool :=
  w.offering g h = some true && (w.host h).any (·.state = .idle) && w.connected h

/-- One turn of the `flatMap`: the game, where it has metadata, and its stale memberships. -/
def listGame (w : World) (g : GameId) : Option (List Listing × List (GameId × HostId)) :=
  match w.gameInfo g with
  | none => some ([], [])
  | some game =>
    if (w.idle g).any (w.offering g · = none) then none
    else some ([⟨game.id, game.source, game.title, ((w.idle g).filter (w.available g)).length⟩],
      ((w.idle g).filter (w.offering g · = some false)).map (g, ·))

/-- `SREM` of one stale membership. -/
def dropMember (idle : GameId → List HostId) (stale : GameId × HostId) : GameId → List HostId :=
  fun g => if g = stale.1 then srem (idle g) stale.2 else idle g

def cleanup (w : World) (stale : List (GameId × HostId)) : World := { w with idle := stale.foldl dropMember w.idle }

/-- `GET /api/v1/games`; `localeCompare` orders the titles. -/
def catalogue (localeCompare : String → String → Ordering) (w : World) : CatalogueResponse × World :=
  if w.games.isEmpty then ({ status := 200 }, w)
  else match w.games.mapM w.listGame with
    | none => ({ status := 503 }, w)
    | some found =>
      let games := (found.map Prod.fst).flatten.insertionSort fun a b => (localeCompare a.title b.title).isLE
      ({ status := 200, games := games }, w.cleanup (found.map Prod.snd).flatten)

end World

/-! ## What changes the index -/

/-- A presence the route accepted, a script of a claim or a release, a read of the catalogue, or what happens outside. -/
inductive IndexStep where
  | presence (p : Presence)
  | claim (h : HostId) (s : Session)
  | release (h : HostId) (id : SessionId)
  | catalogue
  | ambient (a : Ambient)
  | elapse (millis : Nat)

variable (localeCompare : String → String → Ordering)

def World.index (w : World) : IndexStep → World
  | .presence p => ((postPresence p).run machine w).2
  | .claim h s => (exec (.claim h s) w).2
  | .release h id => (exec (.release (some h) id) w).2
  | .catalogue => (w.catalogue localeCompare).2
  | .ambient a => w.ambient a
  | .elapse millis => w.elapse millis

/-- Every step can be taken. -/
def World.indexMove (w : World) (i : IndexStep) : Option World := some (w.index localeCompare i)

/-! ## Membership -/

/-- The stored record of the host lists the game. -/
def World.lists (w : World) (h : HostId) (g : GameId) : Bool := (w.host h).any fun r => r.games.any (·.id = g)

/-- The presence puts its host in the idle set of the game. -/
def World.Enlists (w : World) (p : Presence) (g : GameId) : Prop :=
  p.state = .idle ∧ w.lease p.hostId = none ∧ ∃ game ∈ p.games, game.enabled = true ∧ game.id = g

section membership
variable (w : World) {h h' : HostId} {g : GameId}

theorem offers_iff {r : HostRecord} : r.offers g = true ↔ ∃ game ∈ r.games, game.enabled = true ∧ game.id = g := by
  simp [HostRecord.offers]

/-- The route stores the games, then runs the script. -/
theorem index_presence (p : Presence) :
    w.index localeCompare (.presence p) = (w.addGames p.games).presence p w.now := rfl

theorem host_index_presence (p : Presence) : (w.index localeCompare (.presence p)).host h =
    if h = p.hostId then some (w.presenceRecord p w.now) else w.host h := by
  rw [index_presence]
  by_cases hh : h = p.hostId
  · subst hh
    simp only [World.host, World.presence, Keys.get_set_self, Option.map_some, if_true]
    rfl
  · simp only [World.host, World.presence, Keys.get_set_of_ne _ _ _ hh, if_neg hh]
    rfl

/-- The script takes the host out of the idle sets of the record stored before, if there is one, then enlists it. -/
theorem idle_index_presence (p : Presence) : ∃ idle : GameId → List HostId,
    (w.index localeCompare (.presence p)).idle =
      (if (w.lease p.hostId).isNone ∧ p.state = .idle then World.enlist idle p.hostId p.games else idle) ∧
    (w.hosts.get p.hostId = none ∧ idle = w.idle ∨
      ∃ r, w.hosts.get p.hostId = some r ∧ idle = w.delist p.hostId r.1.games) := by
  have hhosts : (w.addGames p.games).hosts.get p.hostId = w.hosts.get p.hostId := rfl
  rw [index_presence]
  cases hr : w.hosts.get p.hostId with
  | none =>
    refine ⟨w.idle, ?_, .inl ⟨rfl, rfl⟩⟩
    unfold World.presence
    rw [hhosts, hr]
    rfl
  | some r =>
    refine ⟨w.delist p.hostId r.1.games, ?_, .inr ⟨r, rfl, rfl⟩⟩
    unfold World.presence
    rw [hhosts, hr]
    rfl

/-- **Whom a presence leaves in the idle set of a game**: its host is out where the record stored before lists the game,
and in where the presence enlists it. -/
theorem mem_index_presence (p : Presence) : h ∈ (w.index localeCompare (.presence p)).idle g ↔
    (h ∈ w.idle g ∧ ¬(h = p.hostId ∧ w.lists h g = true)) ∨ (h = p.hostId ∧ w.Enlists p g) := by
  have hold : ∀ idle : GameId → List HostId,
      h ∈ (if (w.lease p.hostId).isNone ∧ p.state = .idle then World.enlist idle p.hostId p.games else idle) g ↔
        h ∈ idle g ∨ h = p.hostId ∧ w.Enlists p g := by
    intro idle
    unfold World.Enlists
    by_cases hfree : (w.lease p.hostId).isNone ∧ p.state = .idle
    · rw [if_pos hfree, mem_enlist]
      simp [hfree.2, Option.isNone_iff_eq_none.1 hfree.1]
    · rw [if_neg hfree]
      rw [Option.isNone_iff_eq_none] at hfree
      constructor
      · exact .inl
      · rintro (hi | ⟨-, hidle, hlease, -⟩)
        · exact hi
        · exact absurd ⟨hlease, hidle⟩ hfree
  obtain ⟨idle, heq, hbefore⟩ := idle_index_presence localeCompare w p
  rw [heq]
  refine (hold idle).trans (or_congr_left ?_)
  unfold World.lists World.host
  rcases hbefore with ⟨hr, rfl⟩ | ⟨r, hr, rfl⟩
  · refine ⟨fun hi => ⟨hi, ?_⟩, And.left⟩
    rintro ⟨rfl, hl⟩
    rw [hr] at hl
    cases hl
  · rw [mem_delist]
    refine and_congr_right fun _ => not_congr (and_congr_right ?_)
    rintro rfl
    rw [hr]
    rfl

end membership

/-! ## After a presence -/

/-- The idle sets that hold the host of a presence are then those of the games it enables, where it is idle and has no
lease, and none elsewhere. -/
def Exact (w : World) : IndexStep → Prop
  | .presence p => ∀ g, p.hostId ∈ (w.index localeCompare (.presence p)).idle g ↔
      p.state = .idle ∧ (w.index localeCompare (.presence p)).lease p.hostId = none ∧
        ∃ game ∈ p.games, game.enabled = true ∧ game.id = g
  | _ => True

/-- A presence finds its host in the idle sets of games that the stored record lists or that it enlists itself. -/
def Traceable (w : World) : IndexStep → Prop
  | .presence p => ∀ g, p.hostId ∈ w.idle g → w.lists p.hostId g = true ∨ w.Enlists p g
  | _ => True

variable {localeCompare}

theorem exact_iff (w : World) (i : IndexStep) : Exact localeCompare w i ↔ Traceable w i := by
  cases i with
  | presence p =>
    have hlease : (w.index localeCompare (.presence p)).lease p.hostId = w.lease p.hostId := rfl
    unfold Exact Traceable
    dsimp only
    refine forall_congr' fun g => ?_
    rw [mem_index_presence, hlease]
    change (_ ↔ w.Enlists p g) ↔ _
    constructor
    · intro h hi
      by_cases hl : w.lists p.hostId g = true
      · exact .inl hl
      · exact .inr (h.1 (.inl ⟨hi, fun hc => hl hc.2⟩))
    · intro h
      constructor
      · rintro (⟨hi, hn⟩ | ⟨-, he⟩)
        · exact (h hi).resolve_left fun hl => hn ⟨rfl, hl⟩
        · exact he
      · exact fun he => .inr ⟨rfl, he⟩
  | _ => exact Iff.rfl

/-- **The idle index is exact after every presence of a run, exactly when every presence finds its host only in the idle
sets of games that the record stored before lists, or that the presence itself enlists.** -/
theorem exactness_iff (localeCompare : String → String → Ordering) (config : Config) (steps : List IndexStep) :
    Along (World.indexMove localeCompare) (Exact localeCompare) (World.init config) steps ↔
      Along (World.indexMove localeCompare) Traceable (World.init config) steps :=
  ⟨Along.mono fun w i => (exact_iff w i).1, Along.mono fun w i => (exact_iff w i).2⟩

def installedGame : Game := ⟨⟨"steam:730"⟩, .steam, "Counter-Strike 2", "appmanifest_730.acf", true⟩

/-- A host enables a game, its record expires, and it comes back with no game. -/
def forgottenGame : List IndexStep :=
  [.presence ⟨⟨1⟩, .idle, [installedGame], none⟩, .ambient (.expireHost ⟨1⟩), .presence ⟨⟨1⟩, .idle, [], none⟩]

/-- **A membership outlives the record it came from.** -/
theorem not_exactness : ¬∀ (localeCompare : String → String → Ordering) (config : Config) (steps : List IndexStep),
    Along (World.indexMove localeCompare) (Exact localeCompare) (World.init config) steps := by
  intro h
  have h₁ := h (fun _ _ => .eq) ⟨60⟩ forgottenGame
  have h₂ := (h₁ _ rfl).2
  have h₃ := (h₂ _ rfl).2
  have hlast := (exact_iff _ _).1 (h₃ _ rfl).1 installedGame.id (by decide)
  rcases hlast with hl | ⟨-, -, game, hg, -⟩
  · revert hl
    decide
  · cases hg

/-! ## What the other steps do -/

/-- What holds of the index after every run. -/
structure Indexed (w : World) : Prop where
  listed : ∀ g h, h ∈ w.idle g → g ∈ w.games
  recorded : ∀ h r, w.host h = some r → ∀ game ∈ r.games, game.id ∈ w.games
  info : ∀ g ∈ w.games, ∃ game, w.gameInfo g = some game ∧ game.id = g
  idle : ∀ h r g, w.host h = some r → r.state = .idle → r.offers g = true → h ∈ w.idle g
  nodup : ∀ g, (w.idle g).Nodup

/-- No idle set holds a host whose record lists no game. -/
def Furnished (w : World) : Prop := ∀ g h r, h ∈ w.idle g → w.host h = some r → r.games ≠ []

/-- **What a step other than a presence does**: it removes records or rewrites them with the same games, and brings a
host into the idle sets of games that its record offers. -/
structure Reindexed (w w' : World) : Prop where
  games : w'.games = w.games
  gameInfo : w'.gameInfo = w.gameInfo
  record : ∀ h r', w'.host h = some r' → ∃ r, w.host h = some r ∧ r'.games = r.games
  entered : ∀ g h, h ∈ w'.idle g → h ∈ w.idle g ∨ ∃ r, w.host h = some r ∧ r.offers g = true
  idle : (∀ h r g, w.host h = some r → r.state = .idle → r.offers g = true → h ∈ w.idle g) →
    ∀ h r g, w'.host h = some r → r.state = .idle → r.offers g = true → h ∈ w'.idle g
  nodup : (∀ g, (w.idle g).Nodup) → ∀ g, (w'.idle g).Nodup

theorem Reindexed.indexed {w w' : World} (hr : Reindexed w w') (hw : Indexed w) : Indexed w' where
  listed g h hi := by
    rw [hr.games]
    rcases hr.entered g h hi with hi | ⟨r, hh, ho⟩
    · exact hw.listed g h hi
    · obtain ⟨game, hg, -, rfl⟩ := offers_iff.1 ho
      exact hw.recorded h r hh game hg
  recorded h r' hh game hg := by
    obtain ⟨r, hr', he⟩ := hr.record h r' hh
    rw [hr.games]
    exact hw.recorded h r hr' game (he ▸ hg)
  info g hg := by
    rw [hr.gameInfo]
    exact hw.info g (hr.games ▸ hg)
  idle := hr.idle hw.idle
  nodup := hr.nodup hw.nodup

theorem Reindexed.furnished {w w' : World} (hr : Reindexed w w') (hw : Furnished w) : Furnished w' := by
  intro g h r' hi hh he
  obtain ⟨r, hr', hgames⟩ := hr.record h r' hh
  rcases hr.entered g h hi with hi | ⟨r₂, hr₂, ho⟩
  · exact hw g h r hi hr' (hgames ▸ he)
  · obtain rfl : r = r₂ := Option.some.inj (hr'.symm.trans hr₂)
    obtain ⟨game, hg, -⟩ := offers_iff.1 ho
    rw [← hgames, he] at hg
    cases hg

theorem Reindexed.of_eq {w w' : World} (hg : w'.games = w.games) (hi : w'.gameInfo = w.gameInfo)
    (hidle : w'.idle = w.idle) (hh : ∀ h r, w'.host h = some r → w.host h = some r) : Reindexed w w' where
  games := hg
  gameInfo := hi
  record h r' hr := ⟨r', hh h r' hr, rfl⟩
  entered g h hm := .inl (hidle ▸ hm)
  idle hw h r g hr hs ho := by
    rw [hidle]
    exact hw h r g (hh h r hr) hs ho
  nodup hw g := by
    rw [hidle]
    exact hw g

/-- The records after one of them is set. -/
theorem host_set (w : World) (h : HostId) (r : {r : HostRecord // r.hostId = h}) (t : Nat) (h' : HostId) :
    (((w.hosts.set h r t).get h').map Subtype.val) = if h' = h then some r.1 else w.host h' := by
  by_cases hh : h' = h
  · subst hh
    rw [Keys.get_set_self, if_pos rfl]
    rfl
  · rw [Keys.get_set_of_ne _ _ _ hh, if_neg hh]
    rfl

theorem reindexed_claim (w : World) (h : HostId) (s : Session) : Reindexed w (exec (.claim h s) w).2 := by
  simp only [exec]
  cases hc : w.claimable h s.gameId with
  | none => exact .of_eq rfl rfl rfl fun _ _ hr => hr
  | some r =>
    obtain ⟨hr, -, -, -⟩ := claimable_eq_some.1 hc
    have hh : ∀ h', (w.reserve h r s).host h' =
        if h' = h then some { r.1 with state := .reserved, sessionId := some s.id } else w.host h' :=
      fun h' => host_set w h ⟨{ r.1 with state := .reserved, sessionId := some s.id }, r.2⟩ _ h'
    have hold : w.host h = some r.1 := congrArg (Option.map Subtype.val) hr
    refine ⟨rfl, rfl, fun h' r' hr' => ?_, fun g h' hi => ?_, fun hw h' r' g hr' hs ho => ?_, fun hw g => ?_⟩
    · dsimp only at hr'
      rw [hh] at hr'
      split at hr'
      · rename_i he
        subst he
        cases hr'
        exact ⟨r.1, hold, rfl⟩
      · exact ⟨r', hr', rfl⟩
    · exact .inl ((mem_delist w).1 hi).1
    · dsimp only at hr'
      rw [hh] at hr'
      split at hr'
      · cases hr'
        cases hs
      · rename_i hne
        exact (mem_delist w).2 ⟨hw h' r' g hr' hs ho, fun hc => hne hc.1⟩
    · exact nodup_delist w hw h r.1.games g

theorem reindexed_release (w : World) (h : HostId) (id : SessionId) : Reindexed w (w.release h id) := by
  unfold World.release
  split
  swap
  · exact .of_eq rfl rfl rfl fun _ _ hr => hr
  cases hr : w.hosts.get h with
  | none => exact .of_eq rfl rfl rfl fun _ _ hr => hr
  | some r =>
    have hold : w.host h = some r.1 := congrArg (Option.map Subtype.val) hr
    have hh : ∀ (h' : HostId) (r' : HostRecord),
        (((w.hosts.set h ⟨{ r.1 with state := .idle, sessionId := none }, r.2⟩
          (w.now + w.config.hostTtlSeconds * 1000)).get h').map Subtype.val) = some r' →
        h' = h ∧ r' = { r.1 with state := .idle, sessionId := none } ∨ h' ≠ h ∧ w.host h' = some r' := by
      intro h' r' hr'
      rw [host_set] at hr'
      split at hr'
      · cases hr'
        exact .inl ⟨by assumption, rfl⟩
      · exact .inr ⟨by assumption, hr'⟩
    refine ⟨rfl, rfl, fun h' r' hr' => ?_, fun g h' hi => ?_, fun hw h' r' g hr' hs ho => ?_, fun hw g => ?_⟩
    · rcases hh h' r' hr' with ⟨rfl, rfl⟩ | ⟨-, hr'⟩
      · exact ⟨r.1, hold, rfl⟩
      · exact ⟨r', hr', rfl⟩
    · rcases mem_enlist.1 hi with hi | ⟨rfl, hex⟩
      · exact .inl hi
      · exact .inr ⟨r.1, hold, offers_iff.2 hex⟩
    · rcases hh h' r' hr' with ⟨rfl, rfl⟩ | ⟨-, hr'⟩
      · exact mem_enlist.2 (.inr ⟨rfl, offers_iff.1 ho⟩)
      · exact mem_enlist.2 (.inl (hw h' r' g hr' hs ho))
    · exact nodup_enlist hw h r.1.games g

theorem reindexed_ambient (w : World) (a : Ambient) : Reindexed w (w.ambient a) := by
  cases a with
  | expireHost h =>
    refine .of_eq rfl rfl rfl fun h' r hr => ?_
    by_cases hh : h' = h
    · subst hh
      simp [World.host, World.ambient] at hr
    · simpa [World.host, World.ambient, Keys.get_del_of_ne _ hh] using hr
  | reorder g ids =>
    unfold World.ambient
    dsimp only
    by_cases hp : ids.Perm (w.idle g)
    · rw [if_pos hp]
      have hmem : ∀ g' h, h ∈ Function.update w.idle g ids g' ↔ h ∈ w.idle g' := by
        intro g' h
        by_cases hg : g' = g
        · subst hg
          rw [Function.update_self]
          exact hp.mem_iff
        · rw [Function.update_of_ne hg]
      refine ⟨rfl, rfl, fun h' r' hr' => ⟨r', hr', rfl⟩, fun g' h' hi => .inl ((hmem g' h').1 hi),
        fun hw h' r' g' hr' hs ho => (hmem g' h').2 (hw h' r' g' hr' hs ho), fun hw g' => ?_⟩
      by_cases hg : g' = g
      · subst hg
        simpa using hp.nodup_iff.2 (hw g')
      · simpa [hg] using hw g'
    · rw [if_neg hp]
      exact .of_eq rfl rfl rfl fun _ _ hr => hr
  | _ => exact .of_eq rfl rfl rfl fun _ _ hr => hr

theorem reindexed_elapse (w : World) (millis : Nat) : Reindexed w (w.elapse millis) := by
  refine .of_eq rfl rfl rfl fun h r hr => ?_
  obtain ⟨r', hr', rfl⟩ := Option.map_eq_some_iff.1 hr
  exact congrArg (Option.map Subtype.val) (Keys.get_sweep_of_some (m := w.hosts) (t := w.now + millis) hr')

/-! ## A read of the catalogue -/

section catalogue
variable {w : World} {g : GameId} {h : HostId}

theorem offering_eq_none : w.offering g h = none ↔ ∃ r, w.host h = some r ∧ r.games = [] := by
  unfold World.offering HostRecord.someGame
  cases w.host h with
  | none => simp
  | some r => simp

theorem offering_eq_true : w.offering g h = some true ↔ ∃ r, w.host h = some r ∧ r.offers g = true := by
  unfold World.offering HostRecord.someGame HostRecord.offers
  cases w.host h with
  | none => simp
  | some r => cases hr : r.games <;> simp [hr]

theorem listGame_isSome : (w.listGame g).isSome ↔
    ∀ game, w.gameInfo g = some game → ∀ h ∈ w.idle g, w.offering g h ≠ none := by
  unfold World.listGame
  cases w.gameInfo g with
  | none => simp
  | some game =>
    dsimp only
    split
    · rename_i hany
      simp only [List.any_eq_true, decide_eq_true_eq] at hany
      obtain ⟨h, hm, hn⟩ := hany
      refine iff_of_false (fun hc => by cases hc) fun hall => hall game rfl h hm hn
    · rename_i hany
      simp only [List.any_eq_true, decide_eq_true_eq, not_exists, not_and] at hany
      exact iff_of_true rfl fun _ _ => hany

theorem mem_of_mapM {α β : Type} {f : α → Option β} :
    ∀ {l : List α} {bs : List β}, l.mapM f = some bs → ∀ b ∈ bs, ∃ a ∈ l, f a = some b
  | [], bs, h, b, hb => by
    obtain rfl : [] = bs := Option.some.inj h
    cases hb
  | a :: l, bs, h, b, hb => by
    rw [List.mapM_cons] at h
    cases ha : f a with
    | none => rw [ha] at h; cases h
    | some c =>
      cases hl : l.mapM f with
      | none => rw [ha, hl] at h; cases h
      | some cs =>
        rw [ha, hl] at h
        obtain rfl : c :: cs = bs := Option.some.inj h
        rcases List.mem_cons.1 hb with rfl | hb
        · exact ⟨a, List.mem_cons_self, ha⟩
        · obtain ⟨a', hm, ha'⟩ := mem_of_mapM hl b hb
          exact ⟨a', List.mem_cons_of_mem a hm, ha'⟩

theorem mapM_isSome {α β : Type} {f : α → Option β} : ∀ {l : List α}, (l.mapM f).isSome ↔ ∀ a ∈ l, (f a).isSome
  | [] => by simp
  | a :: l => by
    rw [List.mapM_cons, List.forall_mem_cons, ← mapM_isSome]
    cases f a with
    | none => simp
    | some b => cases l.mapM f <;> simp

theorem mem_cleanup : ∀ (stale : List (GameId × HostId)) (idle : GameId → List HostId),
    h ∈ stale.foldl World.dropMember idle g ↔ h ∈ idle g ∧ (g, h) ∉ stale
  | [], _ => by simp
  | (g', h') :: stale, idle => by
    rw [List.foldl_cons, mem_cleanup stale, World.dropMember]
    by_cases hg : g = g'
    · subst hg
      simp only [if_true, mem_srem, List.mem_cons, Prod.mk.injEq, true_and, not_or, and_assoc]
    · simp [hg]

theorem nodup_cleanup : ∀ (stale : List (GameId × HostId)) (idle : GameId → List HostId), (∀ g, (idle g).Nodup) →
    ∀ g, (stale.foldl World.dropMember idle g).Nodup
  | [], _, hn, g => hn g
  | (g', h') :: stale, idle, hn, g => by
    refine nodup_cleanup stale _ (fun k => ?_) g
    unfold World.dropMember
    split
    · exact nodup_srem (hn k)
    · exact hn k

/-- What the turns of the `flatMap` list, and which memberships they find stale. -/
theorem listGame_spec {found : List Listing × List (GameId × HostId)} (hf : w.listGame g = some found) :
    (∀ e ∈ found.1, ∃ game, w.gameInfo g = some game ∧ e.id = game.id ∧
      e.availableHosts = ((w.idle g).filter (w.available g)).length) ∧
    ∀ e ∈ found.2, w.offering e.1 e.2 = some false := by
  unfold World.listGame at hf
  cases hi : w.gameInfo g with
  | none =>
    rw [hi] at hf
    cases hf
    exact ⟨fun e he => (by cases he), fun e he => (by cases he)⟩
  | some game =>
    rw [hi] at hf
    dsimp only at hf
    split at hf
    · cases hf
    · cases hf
      constructor
      · intro e he
        rw [List.mem_singleton] at he
        subst he
        exact ⟨game, rfl, rfl, rfl⟩
      · intro e he
        obtain ⟨h, hh, rfl⟩ := List.mem_map.1 he
        simpa using (List.mem_filter.1 hh).2

/-- **What a read answers and leaves**: 503 and the same store, or the counts of the members that are available, and the
idle sets without members that do not offer the game. -/
theorem catalogue_spec (localeCompare : String → String → Ordering) (w : World) :
    ((w.games.mapM w.listGame).isSome = false ∧ w.catalogue localeCompare = ({ status := 503 }, w)) ∨
    ∃ games stale, (w.games.mapM w.listGame).isSome = true ∧
      w.catalogue localeCompare = ({ status := 200, games := games }, w.cleanup stale) ∧
      (∀ e ∈ games, ∃ g ∈ w.games, ∃ game, w.gameInfo g = some game ∧ e.id = game.id ∧
        e.availableHosts = ((w.idle g).filter (w.available g)).length) ∧
      ∀ e ∈ stale, w.offering e.1 e.2 = some false := by
  unfold World.catalogue
  by_cases hempty : w.games.isEmpty
  · rw [if_pos hempty]
    rw [List.isEmpty_iff] at hempty
    refine .inr ⟨[], [], ?_, rfl, fun e he => (by cases he), fun e he => by cases he⟩
    rw [hempty]
    rfl
  rw [if_neg hempty]
  cases hm : w.games.mapM w.listGame with
  | none => exact .inl ⟨rfl, rfl⟩
  | some found =>
    refine .inr ⟨_, _, rfl, rfl, fun e he => ?_, fun e he => ?_⟩
    · rw [List.mem_insertionSort, List.mem_flatten] at he
      obtain ⟨l, hl, he⟩ := he
      obtain ⟨f, hf, rfl⟩ := List.mem_map.1 hl
      obtain ⟨g, hg, hgf⟩ := mem_of_mapM hm f hf
      obtain ⟨game, hi, hid, hcount⟩ := (listGame_spec hgf).1 e he
      exact ⟨g, hg, game, hi, hid, hcount⟩
    · rw [List.mem_flatten] at he
      obtain ⟨l, hl, he⟩ := he
      obtain ⟨f, hf, rfl⟩ := List.mem_map.1 hl
      obtain ⟨g, -, hgf⟩ := mem_of_mapM hm f hf
      exact (listGame_spec hgf).2 e he

theorem reindexed_catalogue (localeCompare : String → String → Ordering) (w : World) :
    Reindexed w (w.catalogue localeCompare).2 := by
  rcases catalogue_spec localeCompare w with ⟨-, he⟩ | ⟨games, stale, -, he, -, hstale⟩
  · rw [he]
    exact .of_eq rfl rfl rfl fun _ _ hr => hr
  · rw [he]
    refine ⟨rfl, rfl, fun h r hr => ⟨r, hr, rfl⟩, fun g h hi => .inl ((mem_cleanup stale w.idle).1 hi).1,
      fun hw h r g hr hs ho => ?_, fun hn => nodup_cleanup stale w.idle hn⟩
    refine (mem_cleanup stale w.idle).2 ⟨hw h r g hr hs ho, fun hm => ?_⟩
    have htrue : w.offering g h = some true := offering_eq_true.2 ⟨r, hr, ho⟩
    have hfalse : w.offering g h = some false := hstale _ hm
    rw [htrue] at hfalse
    cases hfalse

end catalogue

/-! ## The invariant of the index -/

section addGames
variable {g : GameId}

theorem mem_games_addGames : ∀ (games : List Game) (l : List GameId),
    g ∈ games.foldl (fun l game => sadd l game.id) l ↔ g ∈ l ∨ ∃ game ∈ games, game.id = g
  | [], _ => by simp
  | game :: games, l => by
    rw [List.foldl_cons, mem_games_addGames games, mem_sadd, List.exists_mem_cons_iff, or_assoc, eq_comm]

theorem info_addGames : ∀ (games : List Game) (m : GameId → Option Game),
    ((∃ game, m g = some game ∧ game.id = g) ∨ ∃ game ∈ games, game.id = g) →
      ∃ game, games.foldl (fun m (game : Game) => Function.update m game.id (some game)) m g = some game ∧ game.id = g
  | [], m, h => h.resolve_right fun ⟨game, hg, _⟩ => (by cases hg)
  | game :: games, m, h => by
    refine info_addGames games _ ?_
    by_cases hg : g = game.id
    · subst hg
      exact .inl ⟨game, Function.update_self .., rfl⟩
    · rcases h with ⟨game', hm, hid⟩ | ⟨game', hg', hid⟩
      · exact .inl ⟨game', (Function.update_of_ne hg _ _).trans hm, hid⟩
      · refine .inr ⟨game', (List.mem_cons.1 hg').resolve_left fun he => hg ?_, hid⟩
        rw [← hid, he]

end addGames

section presence
variable {w : World} {p : Presence}

theorem indexed_presence (localeCompare : String → String → Ordering) (hw : Indexed w) (p : Presence) :
    Indexed (w.index localeCompare (.presence p)) where
  listed g h hi := by
    refine (mem_games_addGames p.games w.games).2 ?_
    rcases (mem_index_presence localeCompare w p).1 hi with ⟨hi, -⟩ | ⟨-, -, -, game, hg, -, hid⟩
    · exact .inl (hw.listed g h hi)
    · exact .inr ⟨game, hg, hid⟩
  recorded h r hr game hg := by
    refine (mem_games_addGames p.games w.games).2 ?_
    rw [host_index_presence] at hr
    split at hr
    · cases hr
      exact .inr ⟨game, hg, rfl⟩
    · exact .inl (hw.recorded h r hr game hg)
  info g hg := by
    refine info_addGames p.games w.gameInfo ?_
    rcases (mem_games_addGames p.games w.games).1 hg with hg | hg
    · exact .inl (hw.info g hg)
    · exact .inr hg
  idle h r g hr hs ho := by
    refine (mem_index_presence localeCompare w p).2 ?_
    rw [host_index_presence] at hr
    split at hr
    · rename_i hh
      refine .inr ⟨hh, ?_⟩
      cases hr
      -- the record is idle only where the presence is and the host has no lease
      unfold World.presenceRecord at hs
      dsimp only at hs
      split at hs
      · cases hs
      · rename_i hn
        refine ⟨hs, ?_, offers_iff.1 ho⟩
        by_contra hl
        exact hn ⟨Option.isSome_iff_ne_none.2 hl, hs⟩
    · rename_i hh
      exact .inl ⟨hw.idle h r g hr hs ho, fun hc => hh hc.1⟩
  nodup g := by
    obtain ⟨idle, heq, hbefore⟩ := idle_index_presence localeCompare w p
    have hold : ∀ k, (idle k).Nodup := by
      intro k
      rcases hbefore with ⟨-, rfl⟩ | ⟨r, -, rfl⟩
      · exact hw.nodup k
      · exact nodup_delist w hw.nodup p.hostId r.1.games k
    rw [heq]
    split
    · exact nodup_enlist hold p.hostId p.games g
    · exact hold g

end presence

theorem indexed_index (localeCompare : String → String → Ordering) {w : World} (hw : Indexed w) (i : IndexStep) :
    Indexed (w.index localeCompare i) := by
  cases i with
  | presence p => exact indexed_presence localeCompare hw p
  | claim h s => exact (reindexed_claim w h s).indexed hw
  | release h id => exact (reindexed_release w h id).indexed hw
  | catalogue => exact (reindexed_catalogue localeCompare w).indexed hw
  | ambient a => exact (reindexed_ambient w a).indexed hw
  | elapse millis => exact (reindexed_elapse w millis).indexed hw

theorem indexed_init (config : Config) : Indexed (World.init config) where
  listed _ _ hi := by cases hi
  recorded _ _ hr := by cases hr
  info _ hg := by cases hg
  idle _ _ _ hr := by cases hr
  nodup _ := List.nodup_nil

/-! ## The catalogue agrees with allocation -/

/-- The connected hosts whose stored record is idle and offers the game. -/
def World.Available (w : World) (g : GameId) : Set HostId :=
  {h | w.connected h = true ∧ ∃ r, w.host h = some r ∧ r.state = .idle ∧ r.offers g = true}

/-- **A read agrees with allocation**: it is answered, it counts the hosts a claim could take, and its clean-up leaves
them in the idle sets. -/
structure Agrees (localeCompare : String → String → Ordering) (w : World) : Prop where
  status : (w.catalogue localeCompare).1.status = 200
  counts : ∀ e ∈ (w.catalogue localeCompare).1.games, e.availableHosts = (w.Available e.id).ncard
  kept : ∀ g h r, w.host h = some r → r.state = .idle → r.offers g = true → h ∈ w.idle g →
    h ∈ (w.catalogue localeCompare).2.idle g

/-- The available members are the available hosts. -/
theorem length_available {w : World} (hw : Indexed w) (g : GameId) :
    ((w.idle g).filter (w.available g)).length = (w.Available g).ncard := by
  have hset : w.Available g = ↑((w.idle g).filter (w.available g)).toFinset := by
    ext h
    simp only [World.Available, Set.mem_ofPred_eq, List.coe_toFinset, List.mem_filter, World.available,
      Bool.and_eq_true, decide_eq_true_eq, offering_eq_true, Option.any_eq_true]
    constructor
    · rintro ⟨hc, r, hr, hs, ho⟩
      exact ⟨hw.idle h r g hr hs ho, ⟨⟨r, hr, ho⟩, r, hr, hs⟩, hc⟩
    · rintro ⟨-, ⟨⟨r, hr, ho⟩, r', hr', hs⟩, hc⟩
      obtain rfl : r = r' := Option.some.inj (hr.symm.trans hr')
      exact ⟨hc, r, hr, hs, ho⟩
  rw [hset, Set.ncard_coe_finset, List.toFinset_card_of_nodup ((hw.nodup g).filter _)]

/-- **A read agrees with allocation exactly where no idle set holds a host whose record lists no game.** -/
theorem agrees_iff (localeCompare : String → String → Ordering) {w : World} (hw : Indexed w) :
    Agrees localeCompare w ↔ Furnished w := by
  have hfound : (w.games.mapM w.listGame).isSome ↔ Furnished w := by
    rw [mapM_isSome]
    constructor
    · intro hall g h r hi hr he
      have hg := hw.listed g h hi
      obtain ⟨game, hinfo, -⟩ := hw.info g hg
      exact listGame_isSome.1 (hall g hg) game hinfo h hi (offering_eq_none.2 ⟨r, hr, he⟩)
    · intro hf g _
      refine listGame_isSome.2 fun game _ h hi hn => ?_
      obtain ⟨r, hr, he⟩ := offering_eq_none.1 hn
      exact hf g h r hi hr he
  rw [← hfound]
  rcases catalogue_spec localeCompare w with ⟨hn, he⟩ | ⟨games, stale, hs, he, hgames, hstale⟩
  · rw [hn]
    refine iff_of_false (fun ha => ?_) (by decide)
    have := ha.status
    rw [he] at this
    cases this
  · refine iff_of_true ⟨by rw [he], fun e hm => ?_, ?_⟩ hs
    · rw [he] at hm
      obtain ⟨g, hg, game, hinfo, hid, hcount⟩ := hgames e hm
      obtain ⟨game', hinfo', hid'⟩ := hw.info g hg
      obtain rfl : game = game' := Option.some.inj (hinfo.symm.trans hinfo')
      rw [hcount, hid, hid', length_available hw]
    · intro g h r hr hidle ho hi
      have hr' : (w.catalogue localeCompare).2.host h = some r := by
        rw [he]
        exact hr
      exact (reindexed_catalogue localeCompare w).idle hw.idle h r g hr' hidle ho

/-- A presence without games finds its host only in the idle sets of games that the stored record lists. -/
def Cleared (w : World) : IndexStep → Prop
  | .presence p => p.games = [] → ∀ g, p.hostId ∈ w.idle g → w.lists p.hostId g = true
  | _ => True

theorem furnished_presence (localeCompare : String → String → Ordering) {w : World} (hw : Furnished w) (p : Presence) :
    Furnished (w.index localeCompare (.presence p)) ↔ Cleared w (.presence p) := by
  constructor
  · intro hf he g hi
    by_contra hl
    refine hf g p.hostId (w.presenceRecord p w.now) ((mem_index_presence localeCompare w p).2 (.inl ⟨hi, ?_⟩)) ?_ he
    · exact fun hc => hl hc.2
    · rw [host_index_presence, if_pos rfl]
  · intro hc g h r hi hr he
    rw [host_index_presence] at hr
    rcases (mem_index_presence localeCompare w p).1 hi with ⟨hi, hn⟩ | ⟨rfl, -, -, game, hg, -⟩
    · split at hr
      · rename_i hh
        subst hh
        cases hr
        exact hn ⟨rfl, hc he g hi⟩
      · exact hw g h r hi hr he
    · rw [if_pos rfl] at hr
      cases hr
      rw [show p.games = [] from he] at hg
      cases hg

/-- **Every read of a run agrees with allocation, exactly when every presence without games finds its host only in the
idle sets of games that the record stored before lists.** -/
theorem agreement_iff (localeCompare : String → String → Ordering) (config : Config) (steps : List IndexStep) :
    Throughout (World.indexMove localeCompare) (Agrees localeCompare) (World.init config) steps ↔
      Along (World.indexMove localeCompare) Cleared (World.init config) steps := by
  have hinit := indexed_init config
  refine throughout_iff_along (I := Indexed) (d := fun _ _ => True) ?_ ?_ hinit ?_ along_true
  · rintro w i w' hw - hs
    obtain rfl := Option.some.inj hs
    exact indexed_index localeCompare hw i
  · rintro w i w' hw - ha hs
    obtain rfl := Option.some.inj hs
    have hf := (agrees_iff localeCompare hw).1 ha
    rw [agrees_iff localeCompare (indexed_index localeCompare hw i)]
    cases i with
    | presence p => exact furnished_presence localeCompare hf p
    | claim h s => exact iff_of_true ((reindexed_claim w h s).furnished hf) trivial
    | release h id => exact iff_of_true ((reindexed_release w h id).furnished hf) trivial
    | catalogue => exact iff_of_true ((reindexed_catalogue localeCompare w).furnished hf) trivial
    | ambient a => exact iff_of_true ((reindexed_ambient w a).furnished hf) trivial
    | elapse millis => exact iff_of_true ((reindexed_elapse w millis).furnished hf) trivial
  · exact (agrees_iff localeCompare hinit).2 fun g h r hi => by cases hi

/-- **A host that comes back without games, while an idle set still holds it, takes the catalogue down.** -/
theorem not_agreement : ¬∀ (localeCompare : String → String → Ordering) (config : Config) (steps : List IndexStep),
    Throughout (World.indexMove localeCompare) (Agrees localeCompare) (World.init config) steps := by
  intro h
  have hrun : after (World.indexMove fun _ _ => .eq) (World.init ⟨60⟩) forgottenGame =
      some (forgottenGame.foldl (World.index fun _ _ => .eq) (World.init ⟨60⟩)) := rfl
  have hlast := ((h (fun _ _ => .eq) ⟨60⟩ forgottenGame).after hrun).status
  have h503 : ((forgottenGame.foldl (World.index fun _ _ => .eq) (World.init ⟨60⟩)).catalogue
      fun _ _ => .eq).1.status = 503 := by decide +kernel
  rw [h503] at hlast
  cases hlast

/-! ## Records that last -/

/-- No record expires while an idle set holds its host. -/
def RecordLasts (w : World) : IndexStep → Prop
  | .ambient (.expireHost h) => ∀ g, h ∉ w.idle g
  | .elapse millis => ∀ g, ∀ h ∈ w.idle g, (w.elapse millis).host h = w.host h
  | _ => True

/-- Every membership comes from the stored record. -/
def Traced (w : World) : Prop := ∀ g h, h ∈ w.idle g → w.lists h g = true

section lasting
variable {w w' : World} {i : IndexStep}

theorem lists_iff {h : HostId} {g : GameId} :
    w.lists h g = true ↔ ∃ r, w.host h = some r ∧ ∃ game ∈ r.games, game.id = g := by
  simp [World.lists, Option.any_eq_true]

theorem Reindexed.traced (hr : Reindexed w w') (hw : Traced w) (hlast : ∀ g, ∀ h ∈ w'.idle g, ∀ r, w.host h = some r →
    ∃ r', w'.host h = some r' ∧ r'.games = r.games) : Traced w' := by
  intro g h hi
  have hold : w.lists h g = true := by
    rcases hr.entered g h hi with hi | ⟨r, hh, ho⟩
    · exact hw g h hi
    · obtain ⟨game, hg, -, hid⟩ := offers_iff.1 ho
      exact lists_iff.2 ⟨r, hh, game, hg, hid⟩
  obtain ⟨r, hh, hlists⟩ := lists_iff.1 hold
  obtain ⟨r', hh', hgames⟩ := hlast g h hi r hh
  exact lists_iff.2 ⟨r', hh', hgames ▸ hlists⟩

theorem traced_presence (localeCompare : String → String → Ordering) (hw : Traced w) (p : Presence) :
    Traced (w.index localeCompare (.presence p)) := by
  intro g h hi
  rw [lists_iff, host_index_presence]
  rcases (mem_index_presence localeCompare w p).1 hi with ⟨hi, hn⟩ | ⟨rfl, -, -, game, hg, -, hid⟩
  · have hne : h ≠ p.hostId := fun hh => hn ⟨hh, hw g h hi⟩
    rw [if_neg hne]
    exact lists_iff.1 (hw g h hi)
  · exact ⟨_, if_pos rfl, game, hg, hid⟩

/-- A claim or a release rewrites the record, or leaves it. -/
theorem host_claim_release {h' : HostId} {r : HostRecord} (hr : w.host h' = some r) (h : HostId) :
    (∀ s, ∃ r', (exec (.claim h s) w).2.host h' = some r' ∧ r'.games = r.games) ∧
      ∀ id, ∃ r', (w.release h id).host h' = some r' ∧ r'.games = r.games := by
  have hset : ∀ (r₀ r₁ : {r : HostRecord // r.hostId = h}) (t : Nat), w.hosts.get h = some r₀ → r₁.1.games = r₀.1.games →
      ∃ r', ((w.hosts.set h r₁ t).get h').map Subtype.val = some r' ∧ r'.games = r.games := by
    intro r₀ r₁ t h₀ hg
    rw [host_set]
    by_cases hh : h' = h
    · subst hh
      have hr₀ : w.host h' = some r₀.1 := congrArg (Option.map Subtype.val) h₀
      obtain rfl : r = r₀.1 := Option.some.inj (hr.symm.trans hr₀)
      exact ⟨r₁.1, if_pos rfl, hg⟩
    · exact ⟨r, by rw [if_neg hh]; exact hr, rfl⟩
  constructor
  · intro s
    simp only [exec]
    cases hc : w.claimable h s.gameId with
    | none => exact ⟨r, hr, rfl⟩
    | some r₀ => exact hset r₀ _ _ (claimable_eq_some.1 hc).1 rfl
  · intro id
    unfold World.release
    split
    · cases h₀ : w.hosts.get h with
      | none => exact ⟨r, hr, rfl⟩
      | some r₀ => exact hset r₀ _ _ h₀ rfl
    · exact ⟨r, hr, rfl⟩

theorem traced_index (localeCompare : String → String → Ordering) (hw : Traced w) (hi : RecordLasts w i) :
    Traced (w.index localeCompare i) := by
  cases i with
  | presence p => exact traced_presence localeCompare hw p
  | claim h s =>
    exact (reindexed_claim w h s).traced hw fun g h' _ r hr => (host_claim_release hr h).1 s
  | release h id =>
    exact (reindexed_release w h id).traced hw fun g h' _ r hr => (host_claim_release hr h).2 id
  | catalogue =>
    refine (reindexed_catalogue localeCompare w).traced hw fun g h _ r hr => ⟨r, ?_, rfl⟩
    rcases catalogue_spec localeCompare w with ⟨-, he⟩ | ⟨games, stale, -, he, -⟩
    · rw [he]; exact hr
    · rw [he]; exact hr
  | ambient a =>
    refine (reindexed_ambient w a).traced hw fun g h hm r hr => ⟨r, ?_, rfl⟩
    cases a with
    | expireHost h' =>
      have hne : h ≠ h' := fun hh => hi g (hh ▸ hm)
      simpa [World.host, World.ambient, Keys.get_del_of_ne _ hne] using hr
    | reorder g' ids =>
      unfold World.ambient
      dsimp only
      split <;> exact hr
    | _ => exact hr
  | elapse millis =>
    exact (reindexed_elapse w millis).traced hw fun g h hm r hr => ⟨r, (hi g h hm).trans hr, rfl⟩

/-- **Where no record expires while an idle set holds its host, every presence is exact and every read agrees.** -/
theorem exact_of_lasting (localeCompare : String → String → Ordering) (config : Config) (steps : List IndexStep)
    (h : Along (World.indexMove localeCompare) RecordLasts (World.init config) steps) :
    Along (World.indexMove localeCompare) (fun w i => Traceable w i ∧ Cleared w i) (World.init config) steps := by
  refine h.of_along (I := Traced) ?_ ?_ fun g h hi => (by cases hi)
  · rintro w i w' hw hi hs
    obtain rfl := Option.some.inj hs
    exact traced_index localeCompare hw hi
  · intro w i hw _
    cases i with
    | presence p => exact ⟨fun g hi => .inl (hw g _ hi), fun _ g hi => hw g _ hi⟩
    | _ => exact ⟨trivial, trivial⟩

end lasting

end Market
end CloudGaming
