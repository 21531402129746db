import CloudGaming.Host.Bytes
import Mathlib.Data.Bool.AllAny
/-!
# IceServers — the TURN configuration, as the host checks it and as the Go layer reads it

`LoadConfiguration` checks the url list and the credentials and sets the environment; `buildICEServersFromEnv` checks
them once more, after trimming.  Both walk the list by its commas: the host up to the end of the string, Go over the
pieces between the commas.  Strings are bytes.
-/
namespace CloudGaming
namespace Host
namespace IceServers

open Bytes (ascii iscntrl isspace)

def comma : UInt8 := 44

/-! ## The host -/

def hasValidIceCredential (value : Bytes) : Bool :=
  value ≠ [] && value.length ≤ 1024 && value.all fun c => !iscntrl c

def isTurn (entry : Bytes) : Bool := (ascii "turn:").isPrefixOf entry || (ascii "turns:").isPrefixOf entry

def isStun (entry : Bytes) : Bool := (ascii "stun:").isPrefixOf entry || (ascii "stuns:").isPrefixOf entry

/-- The entry and the count pass the tests of the loop. -/
def validEntry (entry : Bytes) (count : Nat) : Bool :=
  entry ≠ [] && entry.length ≤ 512 && count ≤ 8 && (entry.all fun c => !(iscntrl c || isspace c)) &&
    !entry.contains 64 && !entry.contains 35 && (isTurn entry || isStun entry)

/-- The loop over the entries of `rest`; `none` where it returns false, else whether there is a TURN server.  Each round
takes an entry and a comma off, so that `rest.length` rounds suffice. -/
def scanUrls : Nat → Bytes → Nat → Bool → Option Bool
  | 0, _, _, hasTurn => some hasTurn
  | rounds + 1, rest, count, hasTurn =>
    if rest = [] then some hasTurn
    else
      let entry := rest.takeWhile (· ≠ comma)
      if !validEntry entry (count + 1) then none
      else
        match rest.dropWhile (· ≠ comma) with
        | [] => some (hasTurn || isTurn entry)
        | _ :: next => scanUrls rounds next (count + 1) (hasTurn || isTurn entry)

def hasValidIceUrlList (urls : Bytes) (requireTurn : Bool) : Bool :=
  if urls = [] ∨ 4096 < urls.length then false
  else
    match scanUrls urls.length urls 0 false with
    | none => false
    | some hasTurn => !requireTurn || hasTurn

/-- `endpoints_.mode`, which is one of the two where the endpoints could be loaded. -/
inductive NetworkMode where
  | production | localMode
  deriving DecidableEq, Repr

/-- What the Go layer reads in the environment. -/
structure Environment where
  PION_NETWORK_MODE : Bytes := []
  PION_TURN_URLS : Bytes := []
  PION_TURN_URL : Bytes := []
  PION_TURN_USERNAME : Bytes := []
  PION_TURN_CREDENTIAL : Bytes := []
  deriving DecidableEq, Repr

def NetworkMode.text : NetworkMode → Bytes
  | production => ascii "production"
  | localMode => ascii "local"

/-- The part of `LoadConfiguration` that sets the environment, from the one found. -/
def loadIceConfiguration (found : Environment) (mode : NetworkMode) (turnUrls turnUsername turnCredential : Bytes) :
    Except String Environment :=
  let env := { found with PION_NETWORK_MODE := mode.text }
  let production : Bool := mode = .production
  if turnUrls ≠ [] ∧ (!hasValidIceUrlList turnUrls production || !hasValidIceCredential turnUsername ||
      !hasValidIceCredential turnCredential) then
    .error "TURN URLs and credentials are incomplete or invalid"
  else if production ∧ turnUrls = [] then .error "Production requires configured TURN credentials"
  else if turnUrls ≠ [] then
    .ok { env with
      PION_TURN_URLS := turnUrls
      PION_TURN_USERNAME := turnUsername
      PION_TURN_CREDENTIAL := turnCredential }
  else .ok env

/-! ## Go -/

/-- The white space of Unicode, in UTF-8. -/
def spaces : List Bytes :=
  [[9], [10], [11], [12], [13], [32], [0xC2, 0x85], [0xC2, 0xA0], [0xE1, 0x9A, 0x80], [0xE2, 0x80, 0x80],
    [0xE2, 0x80, 0x81], [0xE2, 0x80, 0x82], [0xE2, 0x80, 0x83], [0xE2, 0x80, 0x84], [0xE2, 0x80, 0x85],
    [0xE2, 0x80, 0x86], [0xE2, 0x80, 0x87], [0xE2, 0x80, 0x88], [0xE2, 0x80, 0x89], [0xE2, 0x80, 0x8A],
    [0xE2, 0x80, 0xA8], [0xE2, 0x80, 0xA9], [0xE2, 0x80, 0xAF], [0xE2, 0x81, 0x9F], [0xE3, 0x80, 0x80]]

/-- The text without the space it begins with, if it begins with one of `spaces`. -/
def stripOne (spaces : List Bytes) (s : Bytes) : Option Bytes :=
  spaces.findSome? fun space => if space.isPrefixOf s then some (s.drop space.length) else none

/-- Spaces are stripped from the front; every one has a byte at least, so that `s.length` rounds suffice. -/
def trimFront (spaces : List Bytes) : Nat → Bytes → Bytes
  | 0, s => s
  | rounds + 1, s =>
    match stripOne spaces s with
    | none => s
    | some rest => trimFront spaces rounds rest

/-- The text without the spaces at its end. -/
def trimEnd (s : Bytes) : Bytes := (trimFront (spaces.map List.reverse) s.length s.reverse).reverse

/-- `strings.TrimSpace`. -/
def trimSpace (s : Bytes) : Bytes := trimEnd (trimFront spaces s.length s)

/-- `strings.Split` at commas. -/
def split : Bytes → List Bytes
  | [] => [[]]
  | c :: cs =>
    if c = comma then [] :: split cs
    else
      match split cs with
      | [] => [[c]]
      | piece :: pieces => (c :: piece) :: pieces

/-- `strings.ContainsAny`. -/
def containsAny (s chars : Bytes) : Bool := s.any chars.contains

/-- `strings.EqualFold`, with a text of letters that nothing outside ASCII folds to. -/
def equalFold (s text : Bytes) : Bool := s.map (fun c => if 65 ≤ c && c ≤ 90 then c + 32 else c) == text

structure ICEServer where
  urls : List Bytes
  username : Bytes
  credential : Bytes
  deriving DecidableEq, Repr

/-- The loop over the pieces of the list. -/
def readUrls : List Bytes → List Bytes → Bool → Except String (List Bytes × Bool)
  | [], urls, hasTURN => .ok (urls, hasTURN)
  | raw :: rest, urls, hasTURN =>
    let url := trimSpace raw
    if url = [] ∨ 512 < url.length ∨ 8 ≤ urls.length ∨ containsAny url [64, 35, 13, 10, 9, 32] then
      .error "invalid ICE server URL list"
    else if !isTurn url && !isStun url then .error "unsupported ICE server URL scheme"
    else readUrls rest (urls ++ [url]) (hasTURN || isTurn url)

def buildICEServersFromEnv (env : Environment) : Except String (List ICEServer) :=
  let production := equalFold (trimSpace env.PION_NETWORK_MODE) (ascii "production")
  let turnURLsRaw :=
    if trimSpace env.PION_TURN_URLS = [] then trimSpace env.PION_TURN_URL else trimSpace env.PION_TURN_URLS
  if turnURLsRaw = [] then
    if production then .error "production requires authenticated TURN configuration" else .ok []
  else if 4096 < turnURLsRaw.length then .error "ICE server list exceeds the maximum length"
  else
    match readUrls (split turnURLsRaw) [] false with
    | .error e => .error e
    | .ok (urls, hasTURN) =>
      if production && !hasTURN then .error "production ICE configuration must include TURN"
      else
        let username := trimSpace env.PION_TURN_USERNAME
        let credential := trimSpace env.PION_TURN_CREDENTIAL
        if username = [] ∨ credential = [] ∨ 1024 < username.length ∨ 1024 < credential.length ∨
            containsAny username [13, 10] ∨ containsAny credential [13, 10] then
          .error "ICE credentials are missing or invalid"
        else .ok [{ urls, username, credential }]

/-! ## Trimming -/

/-- A byte of white space in UTF-8: no visible character of ASCII. -/
def Blank (c : UInt8) : Prop := c ≤ 32 ∨ 128 ≤ c

instance (c : UInt8) : Decidable (Blank c) := inferInstanceAs (Decidable (_ ∨ _))

/-- What a computation finds of a list of texts. -/
theorem forall_bytes_of_all {P : UInt8 → Prop} [DecidablePred P] {texts : List Bytes}
    (h : texts.all (fun text => !text.isEmpty && text.all (decide <| P ·)) = true) :
    ∀ text ∈ texts, text ≠ [] ∧ ∀ c ∈ text, P c := by
  intro text hin
  have htext := List.all_eq_true.1 h text hin
  rw [Bool.and_eq_true, Bool.not_eq_true', List.isEmpty_eq_false_iff, List.all_iff_forall_prop] at htext
  exact htext

theorem spaces_blank : ∀ space ∈ spaces, space ≠ [] ∧ ∀ c ∈ space, Blank c := forall_bytes_of_all (by decide)

theorem reversed_blank : ∀ space ∈ spaces.map List.reverse, space ≠ [] ∧ ∀ c ∈ space, Blank c :=
  forall_bytes_of_all (by decide)

/-- A visible text that begins a text does so without the blank bytes at the end. -/
theorem prefix_of_blank {p u w : Bytes} (hp : ∀ c ∈ p, ¬Blank c) (hw : ∀ c ∈ w, Blank c) (h : p <+: u ++ w) : p <+: u := by
  rcases List.prefix_or_prefix_of_prefix h (List.prefix_append u w) with hpu | ⟨x, rfl⟩
  · exact hpu
  · rw [List.prefix_append_right_inj] at h
    cases x with
    | nil => simp
    | cons c x => exact absurd (hw c (h.subset List.mem_cons_self)) (hp c (by simp))

/-- A blank text that begins a text does so before its first visible byte. -/
theorem prefix_of_visible {space u w : Bytes} {c : UInt8} (hspace : ∀ c ∈ space, Blank c) (hc : ¬Blank c) :
    space <+: u ++ c :: w ↔ space <+: u := by
  refine ⟨fun h => ?_, fun h => h.trans (List.prefix_append u _)⟩
  rcases List.prefix_or_prefix_of_prefix h (List.prefix_append u (c :: w)) with hu | ⟨x, rfl⟩
  · exact hu
  · rw [List.prefix_append_right_inj] at h
    cases x with
    | nil => simp
    | cons d x =>
      obtain ⟨rfl, -⟩ := List.cons_prefix_cons.1 h
      exact absurd (hspace d (by simp)) hc

theorem trimFront_of_none {spaces : List Bytes} {s : Bytes} (h : stripOne spaces s = none) (rounds : Nat) :
    trimFront spaces rounds s = s := by
  cases rounds with
  | zero => rfl
  | succ rounds =>
    unfold trimFront
    rw [h]

section

variable {spaces : List Bytes} (hspaces : ∀ space ∈ spaces, space ≠ [] ∧ ∀ c ∈ space, Blank c)

include hspaces

theorem stripOne_eq_some {s rest : Bytes} (h : stripOne spaces s = some rest) :
    ∃ space, space ≠ [] ∧ (∀ c ∈ space, Blank c) ∧ s = space ++ rest := by
  obtain ⟨space, hin, hs⟩ := List.exists_of_findSome?_eq_some h
  rw [Option.ite_none_right_eq_some] at hs
  obtain ⟨hfront, hrest⟩ := hs
  obtain ⟨tail, rfl⟩ := List.isPrefixOf_iff_prefix.1 hfront
  rw [List.drop_left] at hrest
  exact ⟨space, (hspaces space hin).1, (hspaces space hin).2, by rw [Option.some.inj hrest]⟩

/-- What comes from a visible byte on takes no part in the stripping. -/
theorem stripOne_append {c : UInt8} (hc : ¬Blank c) (s t : Bytes) :
    stripOne spaces (s ++ c :: t) = (stripOne spaces s).map (· ++ c :: t) := by
  induction spaces with
  | nil => rfl
  | cons space spaces ih =>
    simp only [stripOne, List.findSome?_cons] at ih ⊢
    have hp := prefix_of_visible (u := s) (w := t) (hspaces space List.mem_cons_self).2 hc
    by_cases h : space <+: s
    · rw [if_pos (List.isPrefixOf_iff_prefix.2 (hp.2 h)), if_pos (List.isPrefixOf_iff_prefix.2 h)]
      simp [List.drop_append_of_le_length h.length_le]
    · rw [if_neg fun h' => h (hp.1 (List.isPrefixOf_iff_prefix.1 h')),
        if_neg fun h' => h (List.isPrefixOf_iff_prefix.1 h')]
      exact ih fun space hin => hspaces space (List.mem_cons_of_mem _ hin)

theorem trimFront_append {c : UInt8} (hc : ¬Blank c) (t : Bytes) : ∀ (rounds : Nat) (s : Bytes),
    trimFront spaces rounds (s ++ c :: t) = trimFront spaces rounds s ++ c :: t
  | 0, s => rfl
  | rounds + 1, s => by
    unfold trimFront
    rw [stripOne_append hspaces hc]
    cases stripOne spaces s with
    | none => rfl
    | some rest => exact trimFront_append hc t rounds rest

/-- Rounds enough leave no space at the front. -/
theorem stripOne_trimFront : ∀ {rounds : Nat} {s : Bytes}, s.length ≤ rounds →
    stripOne spaces (trimFront spaces rounds s) = none
  | 0, s, h => by
    obtain rfl := List.length_eq_zero_iff.1 (Nat.le_zero.1 h)
    cases hstrip : stripOne spaces [] with
    | none => exact hstrip
    | some rest =>
      obtain ⟨space, hne, -, hs⟩ := stripOne_eq_some hspaces hstrip
      exact absurd (List.append_eq_nil_iff.1 hs.symm).1 hne
  | rounds + 1, s, h => by
    unfold trimFront
    cases hstrip : stripOne spaces s with
    | none => exact hstrip
    | some rest =>
      obtain ⟨space, hne, -, rfl⟩ := stripOne_eq_some hspaces hstrip
      have := List.length_pos_iff.2 hne
      rw [List.length_append] at h
      exact stripOne_trimFront (by omega)

theorem trimFront_rounds : ∀ {n k : Nat} {s : Bytes}, s.length ≤ n → s.length ≤ k →
    trimFront spaces n s = trimFront spaces k s
  | 0, k, s, hn, _ => by
    have hnone := stripOne_trimFront hspaces hn
    exact (trimFront_of_none hnone k).symm
  | n + 1, 0, s, _, hk => by
    have hnone := stripOne_trimFront hspaces hk
    exact trimFront_of_none hnone (n + 1)
  | n + 1, k + 1, s, hn, hk => by
    unfold trimFront
    cases hstrip : stripOne spaces s with
    | none => rfl
    | some rest =>
      obtain ⟨space, hne, -, rfl⟩ := stripOne_eq_some hspaces hstrip
      have := List.length_pos_iff.2 hne
      rw [List.length_append] at hn hk
      exact trimFront_rounds (by omega) (by omega)

theorem trimFront_spec : ∀ (rounds : Nat) (s : Bytes),
    ∃ w, s = w ++ trimFront spaces rounds s ∧ ∀ c ∈ w, Blank c
  | 0, s => ⟨[], rfl, fun _ h => by cases h⟩
  | rounds + 1, s => by
    unfold trimFront
    cases h : stripOne spaces s with
    | none => exact ⟨[], rfl, fun _ h => by cases h⟩
    | some rest =>
      obtain ⟨space, -, hblank, rfl⟩ := stripOne_eq_some hspaces h
      obtain ⟨w, hw, hwblank⟩ := trimFront_spec rounds rest
      refine ⟨space ++ w, ?_, fun c hc => ?_⟩
      · rw [List.append_assoc]
        exact congrArg (space ++ ·) hw
      · rcases List.mem_append.1 hc with hc | hc
        · exact hblank c hc
        · exact hwblank c hc

theorem trimFront_of_visible {c : UInt8} {s : Bytes} (hc : ¬Blank c) (rounds : Nat) :
    trimFront spaces rounds (c :: s) = c :: s := by
  refine trimFront_of_none ?_ rounds
  cases h : stripOne spaces (c :: s) with
  | none => rfl
  | some rest =>
    obtain ⟨space, hne, hblank, hs⟩ := stripOne_eq_some hspaces h
    cases space with
    | nil => exact absurd rfl hne
    | cons d space =>
      rw [List.cons_append, List.cons.injEq] at hs
      exact absurd (hs.1 ▸ hblank d List.mem_cons_self) hc

end

theorem trimEnd_spec (s : Bytes) : ∃ w, s = trimEnd s ++ w ∧ ∀ c ∈ w, Blank c := by
  obtain ⟨w, hw, hwblank⟩ := trimFront_spec reversed_blank s.length s.reverse
  refine ⟨w.reverse, ?_, fun c hc => hwblank c (List.mem_reverse.1 hc)⟩
  rw [trimEnd, ← List.reverse_append, ← hw, List.reverse_reverse]

theorem trimEnd_idem (s : Bytes) : trimEnd (trimEnd s) = trimEnd s := by
  have hnone := stripOne_trimFront reversed_blank (Nat.le_of_eq (List.length_reverse : s.reverse.length = s.length))
  rw [trimEnd, trimEnd, List.reverse_reverse, trimFront_of_none hnone]

/-- What stands before a visible byte stays as it is. -/
theorem trimEnd_append {c : UInt8} (hc : ¬Blank c) (s t : Bytes) : trimEnd (s ++ c :: t) = s ++ c :: trimEnd t := by
  have hrounds : trimFront (spaces.map List.reverse) (s ++ c :: t).length t.reverse =
      trimFront (spaces.map List.reverse) t.length t.reverse :=
    trimFront_rounds reversed_blank (by simp; omega) (by simp)
  rw [trimEnd, trimEnd, List.reverse_append, List.reverse_cons, List.append_assoc, List.singleton_append,
    trimFront_append reversed_blank hc, hrounds]
  simp

/-- A text that begins with a visible byte is trimmed at its end only. -/
theorem trimSpace_of_visible {c : UInt8} {s : Bytes} (hc : ¬Blank c) : trimSpace (c :: s) = c :: trimEnd s := by
  rw [trimSpace, trimFront_of_visible spaces_blank hc]
  exact trimEnd_append hc [] s

/-- **Trimming takes blank bytes from both ends.** -/
theorem trimSpace_spec (s : Bytes) : ∃ v w, s = v ++ (trimSpace s ++ w) ∧ (∀ c ∈ v, Blank c) ∧ ∀ c ∈ w, Blank c := by
  obtain ⟨v, hv, hvblank⟩ := trimFront_spec spaces_blank s.length s
  obtain ⟨w, hw, hwblank⟩ := trimEnd_spec (trimFront spaces s.length s)
  exact ⟨v, w, hv.trans (congrArg (v ++ ·) hw), hvblank, hwblank⟩

theorem mem_of_mem_trimSpace {s : Bytes} {c : UInt8} (h : c ∈ trimSpace s) : c ∈ s := by
  obtain ⟨v, w, hs, -⟩ := trimSpace_spec s
  rw [hs]
  exact List.mem_append_right _ (List.mem_append_left _ h)

theorem length_trimSpace_le (s : Bytes) : (trimSpace s).length ≤ s.length := by
  obtain ⟨v, w, hs, -⟩ := trimSpace_spec s
  have := congrArg List.length hs
  simp only [List.length_append] at this
  omega

/-! ## The entries -/

/-- The first piece, and the pieces behind the comma after it. -/
theorem split_of_comma : ∀ {s : Bytes} {c : UInt8} {next : Bytes}, s.dropWhile (· ≠ comma) = c :: next →
    c = comma ∧ split s = s.takeWhile (· ≠ comma) :: split next
  | [], _, _, h => by cases h
  | d :: s, c, next, h => by
    by_cases hd : d = comma
    · simp only [List.dropWhile_cons, hd, ne_eq, not_true_eq_false, decide_false, Bool.false_eq_true, if_false,
        List.cons.injEq] at h
      obtain ⟨rfl, rfl⟩ := h
      exact ⟨rfl, by simp [split, hd]⟩
    · rw [List.dropWhile_cons_of_pos (by simpa using hd)] at h
      obtain ⟨hc, hs⟩ := split_of_comma h
      rw [split, if_neg hd, hs, List.takeWhile_cons_of_pos (by simpa using hd)]
      exact ⟨hc, rfl⟩

theorem split_of_no_comma : ∀ {s : Bytes}, s.dropWhile (· ≠ comma) = [] → split s = [s.takeWhile (· ≠ comma)]
  | [], _ => rfl
  | d :: s, h => by
    by_cases hd : d = comma
    · simp [hd] at h
    · rw [List.dropWhile_cons_of_pos (by simpa using hd)] at h
      rw [split, if_neg hd, split_of_no_comma h, List.takeWhile_cons_of_pos (by simpa using hd)]

theorem split_of_not_mem : ∀ {s : Bytes}, comma ∉ s → split s = [s]
  | [], _ => rfl
  | c :: s, h => by
    rw [List.mem_cons, not_or] at h
    rw [split, if_neg (Ne.symm h.1), split_of_not_mem h.2]

theorem split_append : ∀ {entry : Bytes} (next : Bytes), comma ∉ entry →
    split (entry ++ comma :: next) = entry :: split next
  | [], _, _ => if_pos rfl
  | c :: entry, next, h => by
    rw [List.mem_cons, not_or] at h
    rw [List.cons_append, split, if_neg (Ne.symm h.1), split_append next h.2]

theorem comma_not_mem_takeWhile (s : Bytes) : comma ∉ s.takeWhile (· ≠ comma) := by
  intro h
  have := List.all_eq_true.1 (List.all_takeWhile (l := s) (p := (· ≠ comma))) comma h
  simp at this

/-- What the host's loop makes sure of an entry. -/
structure Good (entry : Bytes) : Prop where
  length_le : entry.length ≤ 512
  visible : ∀ c ∈ entry, iscntrl c = false ∧ isspace c = false
  noAt : 64 ∉ entry
  noHash : 35 ∉ entry
  scheme : isTurn entry = true ∨ isStun entry = true

theorem good_of_validEntry {entry : Bytes} {count : Nat} (h : validEntry entry count = true) :
    Good entry ∧ count ≤ 8 := by
  simp only [validEntry, Bool.and_eq_true, decide_eq_true_eq, List.all_eq_true, Bool.not_eq_true', Bool.or_eq_false_iff,
    Bool.or_eq_true] at h
  obtain ⟨⟨⟨⟨⟨⟨-, hlength⟩, hcount⟩, hvisible⟩, hat⟩, hhash⟩, hscheme⟩ := h
  exact ⟨⟨hlength, hvisible, by simpa using hat, by simpa using hhash, hscheme⟩, hcount⟩

/-- **What the host's loop accepts**: where no comma ends the list, all pieces are good entries, eight at most. -/
theorem scanUrls_spec : ∀ {rounds : Nat} {rest : Bytes} {count : Nat} {hasTurn found : Bool},
    scanUrls rounds rest count hasTurn = some found → rest.length ≤ rounds → rest ≠ [] → rest.getLast? ≠ some comma →
      (∀ entry ∈ split rest, Good entry) ∧ count + (split rest).length ≤ 8 ∧
        found = (hasTurn || (split rest).any isTurn)
  | 0, rest, _, _, _, _, hlength, hne, _ => absurd (List.length_eq_zero_iff.1 (Nat.le_zero.1 hlength)) hne
  | rounds + 1, rest, count, hasTurn, found, h, hlength, hne, hlast => by
    rw [scanUrls, if_neg hne] at h
    dsimp only at h
    by_cases hv : validEntry (rest.takeWhile (· ≠ comma)) (count + 1) = true
    · rw [if_neg (by rw [hv]; decide)] at h
      obtain ⟨hgood, hcount⟩ := good_of_validEntry hv
      cases hd : rest.dropWhile (· ≠ comma) with
      | nil =>
        rw [hd] at h
        rw [split_of_no_comma hd]
        refine ⟨by simpa using hgood, hcount, ?_⟩
        simpa using (Option.some.inj h).symm
      | cons c next =>
        rw [hd] at h
        dsimp only at h
        have happ : rest = rest.takeWhile (· ≠ comma) ++ c :: next := by
          rw [← hd, List.takeWhile_append_dropWhile]
        obtain ⟨hc, hsplit⟩ := split_of_comma hd
        have hnext : next ≠ [] := by
          rintro rfl
          rw [happ, List.getLast?_concat, hc] at hlast
          exact hlast rfl
        have hnextLast : next.getLast? ≠ some comma := by
          rw [happ, List.getLast?_append_of_ne_nil _ (by simp), List.getLast?_cons_of_ne_nil hnext] at hlast
          exact hlast
        have hshort : next.length ≤ rounds := by
          have := congrArg List.length happ
          simp only [List.length_append, List.length_cons] at this
          omega
        obtain ⟨hall, hsum, hfound⟩ := scanUrls_spec h hshort hnext hnextLast
        rw [hsplit]
        refine ⟨fun entry he => ?_, ?_, ?_⟩
        · rcases List.mem_cons.1 he with rfl | he
          · exact hgood
          · exact hall entry he
        · rw [List.length_cons]
          omega
        · rw [hfound, List.any_cons, Bool.or_assoc]
    · rw [if_pos (by rw [Bool.eq_false_iff.2 hv]; rfl)] at h
      cases h

theorem scheme_visible :
    ∀ p ∈ [ascii "turn:", ascii "turns:", ascii "stun:", ascii "stuns:"], p ≠ [] ∧ ∀ c ∈ p, ¬Blank c :=
  forall_bytes_of_all (by decide)

theorem comma_visible : ¬Blank comma := by decide

theorem isTurn_iff {s : Bytes} : isTurn s = true ↔ ascii "turn:" <+: s ∨ ascii "turns:" <+: s := by
  rw [isTurn, Bool.or_eq_true, List.isPrefixOf_iff_prefix, List.isPrefixOf_iff_prefix]

theorem isStun_iff {s : Bytes} : isStun s = true ↔ ascii "stun:" <+: s ∨ ascii "stuns:" <+: s := by
  rw [isStun, Bool.or_eq_true, List.isPrefixOf_iff_prefix, List.isPrefixOf_iff_prefix]

namespace Good

variable {entry : Bytes} (h : Good entry)

include h

theorem eq_cons : ∃ c rest, entry = c :: rest ∧ ¬Blank c := by
  have hscheme : ∃ p ∈ [ascii "turn:", ascii "turns:", ascii "stun:", ascii "stuns:"], p <+: entry := by
    rcases h.scheme with h | h
    · rcases isTurn_iff.1 h with h | h
      · exact ⟨_, by simp, h⟩
      · exact ⟨_, by simp, h⟩
    · rcases isStun_iff.1 h with h | h
      · exact ⟨_, by simp, h⟩
      · exact ⟨_, by simp, h⟩
  obtain ⟨p, hin, t, rfl⟩ := hscheme
  obtain ⟨hne, hvisible⟩ := scheme_visible p hin
  cases p with
  | nil => exact absurd rfl hne
  | cons c p => exact ⟨c, p ++ t, rfl, hvisible c List.mem_cons_self⟩

theorem trimSpace_append : ∃ w, entry = trimSpace entry ++ w ∧ ∀ c ∈ w, Blank c := by
  obtain ⟨c, rest, rfl, hc⟩ := h.eq_cons
  obtain ⟨w, hw, hblank⟩ := trimEnd_spec rest
  refine ⟨w, ?_, hblank⟩
  rw [trimSpace_of_visible hc, List.cons_append, ← hw]

/-- A scheme is visible, so that trimming keeps it. -/
theorem prefix_iff {p : Bytes} (hp : ∀ c ∈ p, ¬Blank c) : p <+: trimSpace entry ↔ p <+: entry := by
  obtain ⟨w, hw, hblank⟩ := h.trimSpace_append
  constructor
  · intro hfront
    rw [hw]
    exact hfront.trans (List.prefix_append _ w)
  · intro hfront
    rw [hw] at hfront
    exact prefix_of_blank hp hblank hfront

theorem isTurn_trimSpace : isTurn (trimSpace entry) = isTurn entry := by
  rw [Bool.eq_iff_iff, isTurn_iff, isTurn_iff, h.prefix_iff (scheme_visible _ (by simp)).2,
    h.prefix_iff (scheme_visible _ (by simp)).2]

theorem isStun_trimSpace : isStun (trimSpace entry) = isStun entry := by
  rw [Bool.eq_iff_iff, isStun_iff, isStun_iff, h.prefix_iff (scheme_visible _ (by simp)).2,
    h.prefix_iff (scheme_visible _ (by simp)).2]

/-- Trimming the whole list first changes nothing in an entry that is trimmed later. -/
theorem trimSpace_trimEnd : trimSpace (trimEnd entry) = trimSpace entry := by
  obtain ⟨c, rest, rfl, hc⟩ := h.eq_cons
  have hcons : trimEnd (c :: rest) = c :: trimEnd rest := trimEnd_append hc [] rest
  rw [hcons, trimSpace_of_visible hc, trimSpace_of_visible hc, trimEnd_idem]

/-- What the loop of Go asks of an entry once it is trimmed. -/
theorem usable : trimSpace entry ≠ [] ∧ (trimSpace entry).length ≤ 512 ∧
    containsAny (trimSpace entry) [64, 35, 13, 10, 9, 32] = false ∧
      (isTurn (trimSpace entry) || isStun (trimSpace entry)) = true := by
  refine ⟨?_, Nat.le_trans (length_trimSpace_le entry) h.length_le, ?_, ?_⟩
  · obtain ⟨c, rest, rfl, hc⟩ := h.eq_cons
    rw [trimSpace_of_visible hc]
    exact List.cons_ne_nil c _
  · rw [containsAny, List.any_eq_false]
    intro c hin hc
    have hmem := mem_of_mem_trimSpace hin
    have hspaces : ∀ d ∈ [13, 10, 9, 32], isspace d = true := List.all_eq_true.1 (by decide)
    simp only [List.contains_cons, List.contains_nil, Bool.or_false, Bool.or_eq_true, beq_iff_eq] at hc
    rcases hc with rfl | rfl | hc
    · exact h.noAt hmem
    · exact h.noHash hmem
    · have := hspaces c (by simpa using hc)
      rw [(h.visible c hmem).2] at this
      cases this
  · rw [h.isTurn_trimSpace, h.isStun_trimSpace]
    exact Bool.or_eq_true_iff.2 h.scheme

end Good

/-- The list begins with its first entry, hence with a visible byte. -/
theorem visible_of_good {s : Bytes} (h : ∀ entry ∈ split s, Good entry) : ∃ c rest, s = c :: rest ∧ ¬Blank c := by
  have happ : s.takeWhile (· ≠ comma) ++ s.dropWhile (· ≠ comma) = s := List.takeWhile_append_dropWhile
  have hfirst : s.takeWhile (· ≠ comma) ∈ split s := by
    cases hd : s.dropWhile (· ≠ comma) with
    | nil => simp [split_of_no_comma hd]
    | cons c next => simp [(split_of_comma hd).2]
  obtain ⟨c, rest, hrest, hc⟩ := (h _ hfirst).eq_cons
  rw [hrest] at happ
  exact ⟨c, _, happ.symm, hc⟩

/-- **Trimming the list changes no entry of it.** -/
theorem split_trimEnd : ∀ {n : Nat} {s : Bytes}, s.length ≤ n → (∀ entry ∈ split s, Good entry) →
    (split (trimEnd s)).map trimSpace = (split s).map trimSpace := by
  intro n
  induction n with
  | zero =>
    intro s hn _
    obtain rfl := List.length_eq_zero_iff.1 (Nat.le_zero.1 hn)
    decide
  | succ n ih =>
    intro s hn hgood
    have happ : s.takeWhile (· ≠ comma) ++ s.dropWhile (· ≠ comma) = s := List.takeWhile_append_dropWhile
    have hnot := comma_not_mem_takeWhile s
    generalize s.takeWhile (· ≠ comma) = entry at happ hnot
    cases hd : s.dropWhile (· ≠ comma) with
    | nil =>
      rw [hd, List.append_nil] at happ
      subst happ
      obtain ⟨w, hw, -⟩ := trimEnd_spec entry
      have hnot' : comma ∉ trimEnd entry := fun h => hnot (hw ▸ List.mem_append_left w h)
      rw [split_of_not_mem hnot] at hgood ⊢
      rw [split_of_not_mem hnot', List.map_singleton, List.map_singleton,
        (hgood entry List.mem_cons_self).trimSpace_trimEnd]
    | cons c next =>
      obtain ⟨rfl, -⟩ := split_of_comma hd
      rw [hd] at happ
      subst happ
      rw [split_append next hnot] at hgood ⊢
      rw [trimEnd_append comma_visible, split_append _ hnot, List.map_cons, List.map_cons,
        ih (by simp at hn; omega) fun entry hin => hgood entry (List.mem_cons_of_mem _ hin)]

/-- The loop of Go over pieces that are usable, and few enough. -/
theorem readUrls_eq_ok : ∀ {pieces urls : List Bytes} {hasTURN : Bool},
    (∀ url ∈ pieces.map trimSpace, url ≠ [] ∧ url.length ≤ 512 ∧ containsAny url [64, 35, 13, 10, 9, 32] = false ∧
      (isTurn url || isStun url) = true) → urls.length + pieces.length ≤ 8 →
      readUrls pieces urls hasTURN = .ok (urls ++ pieces.map trimSpace, hasTURN || (pieces.map trimSpace).any isTurn)
  | [], _, _, _, _ => by simp [readUrls]
  | raw :: pieces, urls, hasTURN, h, hlength => by
    obtain ⟨hne, hshort, hchars, hscheme⟩ := h (trimSpace raw) (by simp)
    rw [List.length_cons] at hlength
    have hfirst : ¬(trimSpace raw = [] ∨ 512 < (trimSpace raw).length ∨ 8 ≤ urls.length ∨
        containsAny (trimSpace raw) [64, 35, 13, 10, 9, 32] = true) := by
      rw [hchars]
      simp only [hne, false_or, Bool.false_eq_true, or_false]
      omega
    have hsecond : ¬(!isTurn (trimSpace raw) && !isStun (trimSpace raw)) = true := by
      rw [← Bool.not_or, hscheme]
      decide
    unfold readUrls
    dsimp only
    rw [if_neg hfirst, if_neg hsecond,
      readUrls_eq_ok (fun url hin => h url (List.mem_cons_of_mem _ hin)) (by simp; omega)]
    simp [Bool.or_assoc]

/-! ## One configuration on both sides -/

theorem equalFold_text (mode : NetworkMode) :
    equalFold (trimSpace mode.text) (ascii "production") = decide (mode = .production) := by
  cases mode <;> decide

theorem credential_usable {value : Bytes} (h : hasValidIceCredential value = true) :
    (trimSpace value).length ≤ 1024 ∧ containsAny (trimSpace value) [13, 10] = false := by
  simp only [hasValidIceCredential, Bool.and_eq_true, decide_eq_true_eq, List.all_eq_true, Bool.not_eq_true'] at h
  obtain ⟨⟨-, hlength⟩, hvisible⟩ := h
  refine ⟨Nat.le_trans (length_trimSpace_le value) hlength, ?_⟩
  rw [containsAny, List.any_eq_false]
  intro c hin hc
  have hcontrol : ∀ d ∈ [13, 10], iscntrl d = true := List.all_eq_true.1 (by decide)
  have := hcontrol c (by simpa using hc)
  rw [hvisible c (mem_of_mem_trimSpace hin)] at this
  cases this

/-- What the host has checked where it accepts a list, and what it sets. -/
theorem loadIceConfiguration_spec {found env : Environment} {mode : NetworkMode} {turnUrls turnUsername turnCredential : Bytes}
    (h : loadIceConfiguration found mode turnUrls turnUsername turnCredential = .ok env) (hurls : turnUrls ≠ []) :
    hasValidIceUrlList turnUrls (decide (mode = .production)) = true ∧ hasValidIceCredential turnUsername = true ∧
      hasValidIceCredential turnCredential = true ∧
      env = { found with
        PION_NETWORK_MODE := mode.text
        PION_TURN_URLS := turnUrls
        PION_TURN_USERNAME := turnUsername
        PION_TURN_CREDENTIAL := turnCredential } := by
  unfold loadIceConfiguration at h
  dsimp only at h
  split at h
  · cases h
  · rename_i hvalid
    rw [if_neg (fun hno => hurls hno.2)] at h
    simp only [hurls, ne_eq, not_false_eq_true, true_and, Bool.or_eq_true, Bool.not_eq_true', not_or,
      Bool.not_eq_false] at hvalid
    exact ⟨hvalid.1.1, hvalid.1.2, hvalid.2, (Except.ok.inj h).symm⟩

/-- What the host's check makes sure of a list that no comma ends. -/
theorem hasValidIceUrlList_spec {urls : Bytes} {requireTurn : Bool} (h : hasValidIceUrlList urls requireTurn = true)
    (hlast : urls.getLast? ≠ some comma) :
    urls.length ≤ 4096 ∧ (∀ entry ∈ split urls, Good entry) ∧ (split urls).length ≤ 8 ∧
      (requireTurn = true → (split urls).any isTurn = true) := by
  unfold hasValidIceUrlList at h
  split at h
  · cases h
  · rename_i hlength
    rw [not_or, Nat.not_lt] at hlength
    split at h
    · cases h
    · rename_i found hscan
      obtain ⟨hgood, hcount, hfound⟩ := scanUrls_spec hscan (Nat.le_refl _) hlength.1 hlast
      refine ⟨hlength.2, hgood, by omega, fun hrequire => ?_⟩
      rw [hrequire, hfound] at h
      simpa using h

/-- **What the host accepts, the Go layer can use**: one server with the urls of the list, where no comma ends it and the
credentials are more than white space. -/
theorem buildICEServersFromEnv_of_accepted {found env : Environment} {mode : NetworkMode}
    {turnUrls turnUsername turnCredential : Bytes}
    (h : loadIceConfiguration found mode turnUrls turnUsername turnCredential = .ok env) (hurls : turnUrls ≠ [])
    (hlast : turnUrls.getLast? ≠ some comma) (husername : trimSpace turnUsername ≠ [])
    (hcredential : trimSpace turnCredential ≠ []) :
    buildICEServersFromEnv env = .ok [{
      urls := ((split turnUrls).filter (· ≠ [])).map trimSpace
      username := trimSpace turnUsername
      credential := trimSpace turnCredential }] := by
  obtain ⟨hvalid, hname, hsecret, rfl⟩ := loadIceConfiguration_spec h hurls
  obtain ⟨hlength, hgood, hcount, hturn⟩ := hasValidIceUrlList_spec hvalid hlast
  obtain ⟨hnameLength, hnameChars⟩ := credential_usable hname
  obtain ⟨hsecretLength, hsecretChars⟩ := credential_usable hsecret
  have hfilter : (split turnUrls).filter (· ≠ []) = split turnUrls := by
    rw [List.filter_eq_self]
    intro entry hin
    obtain ⟨c, rest, rfl, -⟩ := (hgood entry hin).eq_cons
    simp
  obtain ⟨c, rest, hcons, hc⟩ := visible_of_good hgood
  have htrim : trimSpace turnUrls = trimEnd turnUrls := by
    rw [hcons, trimSpace_of_visible hc]
    exact (trimEnd_append hc [] rest).symm
  have hne : trimSpace turnUrls ≠ [] := by
    rw [hcons, trimSpace_of_visible hc]
    exact List.cons_ne_nil c _
  have hmap : (split (trimSpace turnUrls)).map trimSpace = (split turnUrls).map trimSpace := by
    rw [htrim]
    exact split_trimEnd (Nat.le_refl _) hgood
  have hpieces : (split (trimSpace turnUrls)).length = (split turnUrls).length := by
    simpa using congrArg List.length hmap
  have hread : readUrls (split (trimSpace turnUrls)) [] false =
      .ok ((split turnUrls).map trimSpace, ((split turnUrls).map trimSpace).any isTurn) := by
    rw [readUrls_eq_ok, hmap]
    · rfl
    · rw [hmap]
      intro url hin
      obtain ⟨entry, hentry, rfl⟩ := List.mem_map.1 hin
      exact (hgood entry hentry).usable
    · rw [hpieces]
      simpa using hcount
  have hturnTrimmed : mode = .production → ((split turnUrls).map trimSpace).any isTurn = true := by
    intro hmode
    obtain ⟨entry, hentry, hisTurn⟩ := List.any_eq_true.1 (hturn (decide_eq_true hmode))
    refine List.any_eq_true.2 ⟨trimSpace entry, List.mem_map_of_mem hentry, ?_⟩
    rw [(hgood entry hentry).isTurn_trimSpace]
    exact hisTurn
  have hproduction : ¬(decide (mode = .production) && !((split turnUrls).map trimSpace).any isTurn) = true := by
    rw [Bool.and_eq_true, decide_eq_true_eq, Bool.not_eq_true']
    rintro ⟨hmode, hno⟩
    rw [hturnTrimmed hmode] at hno
    cases hno
  have hcredentials : ¬(trimSpace turnUsername = [] ∨ trimSpace turnCredential = [] ∨
      1024 < (trimSpace turnUsername).length ∨ 1024 < (trimSpace turnCredential).length ∨
        containsAny (trimSpace turnUsername) [13, 10] = true ∨ containsAny (trimSpace turnCredential) [13, 10] = true) := by
    rw [hnameChars, hsecretChars]
    simp only [husername, hcredential, false_or, Bool.false_eq_true, or_false]
    omega
  unfold buildICEServersFromEnv
  dsimp only
  rw [equalFold_text, if_neg hne, if_neg hne, if_neg (Nat.not_lt.2 (Nat.le_trans (length_trimSpace_le _) hlength)), hread]
  dsimp only
  rw [if_neg hproduction, if_neg hcredentials, hfilter]

/-- Two urls, one server. -/
theorem buildICEServersFromEnv_of_accepted_pair :
    buildICEServersFromEnv
        { PION_NETWORK_MODE := ascii "production"
          PION_TURN_URLS := ascii "turn:a,stun:b"
          PION_TURN_USERNAME := ascii "user"
          PION_TURN_CREDENTIAL := ascii "secret" } =
      .ok [{
        urls := ((split (ascii "turn:a,stun:b")).filter (· ≠ [])).map trimSpace
        username := trimSpace (ascii "user")
        credential := trimSpace (ascii "secret") }] :=
  @buildICEServersFromEnv_of_accepted {} _ .production (ascii "turn:a,stun:b") (ascii "user") (ascii "secret") rfl
    (by decide) (by decide) (by decide) (by decide)

/-- The urls share one server. -/
theorem not_server_per_url :
    ¬∀ (found env : Environment) (mode : NetworkMode) (turnUrls turnUsername turnCredential : Bytes), turnUrls ≠ [] →
      loadIceConfiguration found mode turnUrls turnUsername turnCredential = .ok env →
        ∃ servers, buildICEServersFromEnv env = .ok servers ∧
          servers.length = ((split turnUrls).filter (· ≠ [])).length := by
  intro h
  obtain ⟨servers, hbuild, hlength⟩ := h {} _ .production (ascii "turn:a,stun:b") (ascii "user") (ascii "secret")
    (by decide) rfl
  have hone : buildICEServersFromEnv
      { PION_NETWORK_MODE := ascii "production"
        PION_TURN_URLS := ascii "turn:a,stun:b"
        PION_TURN_USERNAME := ascii "user"
        PION_TURN_CREDENTIAL := ascii "secret" } =
      .ok [{ urls := [ascii "turn:a", ascii "stun:b"], username := ascii "user", credential := ascii "secret" }] := by
    decide
  obtain rfl := Except.ok.inj (hone.symm.trans hbuild)
  revert hlength
  decide

end IceServers
end Host
end CloudGaming
