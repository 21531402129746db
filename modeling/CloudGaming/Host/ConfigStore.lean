import CloudGaming.Host.Json
import Mathlib.Data.String.Basic
/-!
# ConfigStore — the user's configuration, completed with the defaults and migrated

An object of the JSON library is a `std::map`, so a document's members are in the order of their keys, each key once;
`Document` carries that.  A document is read by paths: `at?` follows members of objects and takes an array as a whole.
Converting a float to `int` is undefined where it does not fit, so the conversion is a parameter.
-/
namespace CloudGaming
namespace Host
namespace ConfigStore

/-! ## Documents -/

/-- The members of every object are in the order of their keys. -/
inductive Ordered : Json → Prop where
  | null : Ordered .null
  | bool (b : Bool) : Ordered (.bool b)
  | int (n : Int) : Ordered (.int n)
  | float (q : ℚ) : Ordered (.float q)
  | str (s : String) : Ordered (.str s)
  | arr {items : List Json} (h : ∀ item ∈ items, Ordered item) : Ordered (.arr items)
  | obj {fields : List (String × Json)} (hsorted : fields.Pairwise fun a b => a.1 < b.1)
      (h : ∀ field ∈ fields, Ordered field.2) : Ordered (.obj fields)

/-- `target[key] = value`: a member is overwritten, a new one goes where its key belongs. -/
def assign (key : String) (value : Json) : List (String × Json) → List (String × Json)
  | [] => [(key, value)]
  | (k, w) :: fields =>
    if k = key then (key, value) :: fields
    else if key < k then (key, value) :: (k, w) :: fields
    else (k, w) :: assign key value fields

theorem lookup_cons (key k : String) (value : Json) (fields : List (String × Json)) :
    ((key, value) :: fields).lookup k = if k = key then some value else fields.lookup k := by
  rw [List.lookup_cons]
  by_cases hk : k = key
  · rw [if_pos hk, beq_iff_eq.2 hk]
  · rw [if_neg hk, beq_eq_false_iff_ne.2 hk]

theorem mem_of_lookup {key : String} {value : Json} {fields : List (String × Json)}
    (h : fields.lookup key = some value) : (key, value) ∈ fields := by
  obtain ⟨before, after, hl, -⟩ := List.lookup_eq_some_iff.1 h
  exact hl ▸ List.mem_append_right before List.mem_cons_self

theorem lookup_assign (key k : String) (value : Json) (fields : List (String × Json)) :
    (assign key value fields).lookup k = if k = key then some value else fields.lookup k := by
  induction fields with
  | nil => exact lookup_cons key k value []
  | cons field fields ih =>
    obtain ⟨a, w⟩ := field
    rw [assign]
    split
    · rename_i ha
      rw [lookup_cons, lookup_cons, ha]
      split
      · rfl
      · rfl
    · rename_i hne
      split
      · rw [lookup_cons]
      · rw [lookup_cons, lookup_cons, ih]
        by_cases hka : k = a
        · rw [if_pos hka, if_neg (hka ▸ hne), if_pos hka]
        · rw [if_neg hka, if_neg hka]

theorem mem_assign {key : String} {value : Json} {fields : List (String × Json)} {field : String × Json}
    (h : field ∈ assign key value fields) : field = (key, value) ∨ field ∈ fields := by
  induction fields with
  | nil => exact Or.inl (List.mem_singleton.1 h)
  | cons f fields ih =>
    obtain ⟨a, w⟩ := f
    rw [assign] at h
    split at h
    · rcases List.mem_cons.1 h with h | h
      · exact Or.inl h
      · exact Or.inr (List.mem_cons_of_mem _ h)
    · split at h
      · rcases List.mem_cons.1 h with h | h
        · exact Or.inl h
        · exact Or.inr h
      · rcases List.mem_cons.1 h with h | h
        · exact Or.inr (h ▸ List.mem_cons_self)
        · exact (ih h).imp_right (List.mem_cons_of_mem _)

theorem pairwise_assign (key : String) (value : Json) {fields : List (String × Json)}
    (h : fields.Pairwise fun a b => a.1 < b.1) : (assign key value fields).Pairwise fun a b => a.1 < b.1 := by
  induction fields with
  | nil => exact List.pairwise_singleton _ _
  | cons f fields ih =>
    obtain ⟨a, w⟩ := f
    obtain ⟨hlt, hrest⟩ := List.pairwise_cons.1 h
    rw [assign]
    split
    · rename_i ha
      rw [List.pairwise_cons]
      exact ⟨fun b hb => ha ▸ hlt b hb, hrest⟩
    · split
      · rename_i hka
        rw [List.pairwise_cons]
        refine ⟨?_, h⟩
        intro b hb
        rcases List.mem_cons.1 hb with rfl | hb
        · exact hka
        · exact hka.trans (hlt b hb)
      · rename_i hne hnlt
        rw [List.pairwise_cons]
        refine ⟨?_, ih hrest⟩
        intro b hb
        rcases mem_assign hb with rfl | hb
        · exact lt_of_le_of_ne (not_lt.1 hnlt) hne
        · exact hlt b hb

/-- Writing what is there changes nothing. -/
theorem assign_eq_self {key : String} {value : Json} {fields : List (String × Json)}
    (h : fields.Pairwise fun a b => a.1 < b.1) (hl : fields.lookup key = some value) :
    assign key value fields = fields := by
  induction fields with
  | nil => exact absurd hl (by simp)
  | cons f fields ih =>
    obtain ⟨a, w⟩ := f
    obtain ⟨hlt, hrest⟩ := List.pairwise_cons.1 h
    rw [lookup_cons] at hl
    rw [assign]
    by_cases ha : a = key
    · rw [if_pos ha.symm, Option.some.injEq] at hl
      rw [if_pos ha, hl, ha]
    · rw [if_neg (Ne.symm ha)] at hl
      rw [if_neg ha, if_neg (hlt _ (mem_of_lookup hl)).not_gt, ih hrest hl]

theorem lookup_of_mem {fields : List (String × Json)} (h : fields.Pairwise fun a b => a.1 < b.1)
    {field : String × Json} (hf : field ∈ fields) : fields.lookup field.1 = some field.2 := by
  induction fields with
  | nil => exact absurd hf (by simp)
  | cons f fields ih =>
    obtain ⟨hlt, hrest⟩ := List.pairwise_cons.1 h
    rw [lookup_cons]
    rcases List.mem_cons.1 hf with rfl | hf
    · exact if_pos rfl
    · rw [if_neg (hlt field hf).ne', ih hrest hf]

/-- A value whose objects are maps. -/
structure Document where
  value : Json
  ordered : Ordered value

/-- What is found along a path of members. -/
def at? : Json → List String → Option Json
  | j, [] => some j
  | j, key :: path => (j.field? key).bind fun v => at? v path

theorem field?_of_not_isObject {j : Json} (h : j.isObject = false) (key : String) : j.field? key = none := by
  cases j with
  | obj fields => exact absurd h (by simp [Json.isObject])
  | _ => rfl

/-! ## The defaults -/

mutual

/-- `MergeMissing` -/
def mergeMissing (target : Json) : Json → Json
  | .obj defaults =>
    match target with
    | .obj fields => .obj (mergeFields fields defaults)
    | target => target
  | _ => target

/-- Its loop over the members of the defaults. -/
def mergeFields (fields : List (String × Json)) : List (String × Json) → List (String × Json)
  | [] => fields
  | (key, value) :: rest =>
    mergeFields
      (match fields.lookup key with
      | none => assign key value fields
      | some v => if v.isObject && value.isObject then assign key (mergeMissing v value) fields else fields)
      rest

end

/-- One turn of the loop. -/
def mergeField (fields : List (String × Json)) (field : String × Json) : List (String × Json) :=
  match fields.lookup field.1 with
  | none => assign field.1 field.2 fields
  | some v =>
    if v.isObject && field.2.isObject then assign field.1 (mergeMissing v field.2) fields else fields

theorem mergeFields_cons (fields : List (String × Json)) (field : String × Json) (rest : List (String × Json)) :
    mergeFields fields (field :: rest) = mergeFields (mergeField fields field) rest := by
  obtain ⟨key, value⟩ := field
  rw [mergeFields]
  rfl

theorem mergeMissing_obj (fields defaults : List (String × Json)) :
    mergeMissing (.obj fields) (.obj defaults) = .obj (mergeFields fields defaults) := by
  rw [mergeMissing]

/-- Only an object takes the members of an object. -/
theorem mergeMissing_of_not_both {target defaults : Json} (h : (target.isObject && defaults.isObject) = false) :
    mergeMissing target defaults = target := by
  cases defaults with
  | obj defaults =>
    cases target with
    | obj fields => exact absurd h (by simp [Json.isObject])
    | _ => simp [mergeMissing]
  | _ => simp [mergeMissing]

/-- What a member is after the defaults have been added, from what it was and what its default is. -/
def layered : Option Json → Option Json → Option Json
  | none, default => default
  | some v, none => some v
  | some v, some default => some (mergeMissing v default)

theorem lookup_mergeField (fields : List (String × Json)) (field : String × Json) (key : String) :
    (mergeField fields field).lookup key =
      if key = field.1 then layered (fields.lookup key) (some field.2) else fields.lookup key := by
  unfold mergeField
  by_cases hk : key = field.1
  · rw [if_pos hk, hk]
    cases hl : fields.lookup field.1 with
    | none => rw [lookup_assign, if_pos rfl, layered]
    | some v =>
      dsimp only
      split
      · rw [lookup_assign, if_pos rfl, layered]
      · rename_i hnot
        rw [hl, layered, mergeMissing_of_not_both (Bool.eq_false_iff.2 hnot)]
  · rw [if_neg hk]
    split
    · rw [lookup_assign, if_neg hk]
    · split
      · rw [lookup_assign, if_neg hk]
      · rfl

theorem lookup_mergeFields {defaults : List (String × Json)} (hd : defaults.Pairwise fun a b => a.1 < b.1)
    (fields : List (String × Json)) (key : String) :
    (mergeFields fields defaults).lookup key = layered (fields.lookup key) (defaults.lookup key) := by
  induction defaults generalizing fields with
  | nil =>
    rw [mergeFields, List.lookup_nil]
    cases fields.lookup key with
    | none => rfl
    | some v => rfl
  | cons field rest ih =>
    obtain ⟨hlt, hrest⟩ := List.pairwise_cons.1 hd
    rw [mergeFields_cons, ih hrest, lookup_mergeField, lookup_cons]
    by_cases hk : key = field.1
    · -- the rest of the defaults does not have this key again
      have hnone : rest.lookup key = none := by
        cases hl : rest.lookup key with
        | none => rfl
        | some v => exact absurd (hlt _ (mem_of_lookup hl)) (by rw [hk]; exact lt_irrefl _)
      rw [if_pos hk, if_pos hk, hnone]
      cases fields.lookup key with
      | none => rfl
      | some v => rfl
    · rw [if_neg hk, if_neg hk]

theorem field?_mergeMissing {defaults : Json} (hd : Ordered defaults) (fields : List (String × Json)) (key : String) :
    (mergeMissing (.obj fields) defaults).field? key = layered (fields.lookup key) (defaults.field? key) := by
  cases hd with
  | obj hsorted _ =>
    rw [mergeMissing_obj]
    exact lookup_mergeFields hsorted fields key
  | _ =>
    rw [mergeMissing_of_not_both (by simp [Json.isObject])]
    change fields.lookup key = layered (fields.lookup key) none
    cases fields.lookup key with
    | none => rfl
    | some v => rfl

/-- What `Ordered` says of the members of an object. -/
structure OrderedFields (fields : List (String × Json)) : Prop where
  sorted : fields.Pairwise fun a b => a.1 < b.1
  members : ∀ field ∈ fields, Ordered field.2

theorem OrderedFields.lookup {fields : List (String × Json)} (h : OrderedFields fields) {key : String} {v : Json}
    (hl : fields.lookup key = some v) : Ordered v := h.members (key, v) (mem_of_lookup hl)

theorem OrderedFields.assign {fields : List (String × Json)} (h : OrderedFields fields) (key : String) {value : Json}
    (hv : Ordered value) : OrderedFields (assign key value fields) := by
  refine ⟨pairwise_assign key value h.sorted, ?_⟩
  intro field hf
  rcases mem_assign hf with rfl | hf
  · exact hv
  · exact h.members field hf

theorem OrderedFields.mergeFields {fields defaults : List (String × Json)} (h : OrderedFields fields)
    (hadd : ∀ field ∈ defaults, Ordered field.2)
    (hmerge : ∀ field ∈ defaults, ∀ v, Ordered v → Ordered (mergeMissing v field.2)) :
    OrderedFields (mergeFields fields defaults) := by
  induction defaults generalizing fields with
  | nil =>
    rw [ConfigStore.mergeFields]
    exact h
  | cons field rest ih =>
    rw [mergeFields_cons]
    apply ih _ (fun f hf => hadd f (List.mem_cons_of_mem _ hf)) (fun f hf => hmerge f (List.mem_cons_of_mem _ hf))
    unfold mergeField
    split
    · exact h.assign _ (hadd field List.mem_cons_self)
    · rename_i v hl
      split
      · exact h.assign _ (hmerge field List.mem_cons_self v (h.lookup hl))
      · exact h

theorem ordered_mergeMissing {target defaults : Json} (ht : Ordered target) (hd : Ordered defaults) :
    Ordered (mergeMissing target defaults) := by
  induction hd generalizing target with
  | obj hsorted h ih =>
    cases ht with
    | obj htsorted hmembers =>
      rw [mergeMissing_obj]
      have := OrderedFields.mergeFields ⟨htsorted, hmembers⟩ h fun field hf v hv => ih field hf hv
      exact Ordered.obj this.sorted this.members
    | _ =>
      rw [mergeMissing_of_not_both (by simp [Json.isObject])]
      constructor <;> assumption
  | _ =>
    rw [mergeMissing_of_not_both (by simp [Json.isObject])]
    exact ht

/-- Nothing is added where every default is there already, with nothing to add to it. -/
theorem mergeFields_eq_self {fields defaults : List (String × Json)} (hs : fields.Pairwise fun a b => a.1 < b.1)
    (h : ∀ field ∈ defaults, ∃ v, fields.lookup field.1 = some v ∧ mergeMissing v field.2 = v) :
    mergeFields fields defaults = fields := by
  induction defaults with
  | nil => rw [mergeFields]
  | cons field rest ih =>
    obtain ⟨v, hl, hv⟩ := h field List.mem_cons_self
    have hone : mergeField fields field = fields := by
      unfold mergeField
      rw [hl]
      dsimp only
      split
      · rw [hv, assign_eq_self hs hl]
      · rfl
    rw [mergeFields_cons, hone]
    exact ih fun f hf => h f (List.mem_cons_of_mem _ hf)

theorem mergeMissing_self {j : Json} (hj : Ordered j) : mergeMissing j j = j := by
  induction hj with
  | obj hsorted h ih =>
    rw [mergeMissing_obj, mergeFields_eq_self hsorted fun field hf => ⟨field.2, lookup_of_mem hsorted hf, ih field hf⟩]
  | _ => exact mergeMissing_of_not_both rfl

theorem mergeMissing_idem {target defaults : Json} (ht : Ordered target) (hd : Ordered defaults) :
    mergeMissing (mergeMissing target defaults) defaults = mergeMissing target defaults := by
  induction hd generalizing target with
  | obj hsorted h ih =>
    cases ht with
    | obj htsorted hmembers =>
      have hmerged := OrderedFields.mergeFields ⟨htsorted, hmembers⟩ h fun field hf v hv =>
        ordered_mergeMissing hv (h field hf)
      rw [mergeMissing_obj, mergeMissing_obj, mergeFields_eq_self hmerged.sorted]
      intro field hf
      rw [lookup_mergeFields hsorted, lookup_of_mem hsorted hf]
      rename_i fields
      cases hl : fields.lookup field.1 with
      | none => exact ⟨field.2, rfl, mergeMissing_self (h field hf)⟩
      | some v =>
        have hv : Ordered v := hmembers (field.1, v) (mem_of_lookup hl)
        exact ⟨mergeMissing v field.2, rfl, ih field hf hv⟩
    | _ => exact congrArg (mergeMissing · _) (mergeMissing_of_not_both (by simp [Json.isObject]))
  | _ => exact congrArg (mergeMissing · _) (mergeMissing_of_not_both (by simp [Json.isObject]))

/-- A value that is no object stands on the path, before its end. -/
def blocked : Json → List String → Bool
  | _, [] => false
  | .obj fields, key :: path =>
    match fields.lookup key with
    | none => false
    | some v => blocked v path
  | _, _ :: _ => true

theorem blocked_of_at? {j v : Json} {path : List String} (h : at? j path = some v) : blocked j path = false := by
  induction path generalizing j with
  | nil => cases j <;> rfl
  | cons key path ih =>
    cases j with
    | obj fields =>
      rw [at?, Option.bind_eq_some_iff] at h
      obtain ⟨w, hw, hpath⟩ := h
      have hl : fields.lookup key = some w := hw
      rw [blocked, hl]
      exact ih hpath
    | _ => exact absurd h (by simp [at?, Json.field?])

theorem ordered_of_field? {j v : Json} (hj : Ordered j) {key : String} (h : j.field? key = some v) : Ordered v := by
  cases hj with
  | obj _ hmembers => exact hmembers (key, v) (mem_of_lookup h)
  | _ => exact absurd h (by simp [Json.field?])

/-- Along a path that is not blocked, the two documents are laid over each other. -/
theorem at?_mergeMissing {target defaults : Json} (ht : Ordered target) (hd : Ordered defaults) {path : List String}
    (hb : blocked target path = false) :
    at? (mergeMissing target defaults) path = layered (at? target path) (at? defaults path) := by
  induction path generalizing target defaults with
  | nil => rfl
  | cons key path ih =>
    cases target with
    | obj fields =>
      rw [at?, at?, at?, field?_mergeMissing hd]
      change _ = layered ((fields.lookup key).bind fun v => at? v path) _
      rw [blocked] at hb
      cases hl : fields.lookup key with
      | none => rfl
      | some v =>
        rw [hl] at hb
        cases hdef : defaults.field? key with
        | none =>
          change at? v path = layered (at? v path) none
          cases at? v path with
          | none => rfl
          | some w => rfl
        | some default => exact ih (ordered_of_field? ht hl) (ordered_of_field? hd hdef) hb
    | _ => exact absurd hb (by simp [blocked])

/-- Behind a value that is no object nothing is added. -/
theorem at?_mergeMissing_of_blocked {target defaults : Json} (ht : Ordered target) (hd : Ordered defaults)
    {path : List String} (hb : blocked target path = true) : at? (mergeMissing target defaults) path = none := by
  induction path generalizing target defaults with
  | nil => exact absurd hb (by cases target <;> simp [blocked])
  | cons key path ih =>
    cases target with
    | obj fields =>
      rw [at?, field?_mergeMissing hd]
      rw [blocked] at hb
      cases hl : fields.lookup key with
      | none => rw [hl] at hb; exact absurd hb (by simp)
      | some v =>
        rw [hl] at hb
        cases hdef : defaults.field? key with
        | none =>
          have hself := ih (ordered_of_field? ht hl) Ordered.null hb
          rw [mergeMissing_of_not_both (by simp [Json.isObject])] at hself
          exact hself
        | some default => exact ih (ordered_of_field? ht hl) (ordered_of_field? hd hdef) hb
    | _ =>
      rw [mergeMissing_of_not_both (by simp [Json.isObject])]
      rfl

theorem isObject_mergeMissing (target defaults : Json) :
    (mergeMissing target defaults).isObject = target.isObject := by
  cases hboth : target.isObject && defaults.isObject with
  | false => rw [mergeMissing_of_not_both hboth]
  | true =>
    cases target with
    | obj fields =>
      cases defaults with
      | obj defaults => rw [mergeMissing_obj]; rfl
      | _ => exact absurd hboth (by simp [Json.isObject])
    | _ => exact absurd hboth (by simp [Json.isObject])

/-- The user's document with the defaults added. -/
def Document.mergeMissing (target defaults : Document) : Document :=
  ⟨ConfigStore.mergeMissing target.value defaults.value, ordered_mergeMissing target.ordered defaults.ordered⟩

/-! ## Migration -/

def kCurrentSchemaVersion : Int := 1

/-- How a check ends; reading a value of the wrong type throws. -/
inductive Verdict where
  | valid
  | rejected (error : String)
  | thrown
  deriving DecidableEq, Repr

/-- `value(key, default)`, which only an object has. -/
def value {α : Type} (get : Json → Option α) (default : α) (j : Json) (key : String) : Option α :=
  match j with
  | .obj fields =>
    match fields.lookup key with
    | none => some default
    | some v => get v
  | _ => none

/-- A character of `[A-Za-z0-9 _.-]`. -/
def isPlain (c : Char) : Bool := c.isAlphanum || c = ' ' || c = '_' || c = '.' || c = '-'

/-- `^[A-Za-z0-9 _.-]{1,260}\.exe$`, in any letter case. -/
def isPlainExecutable (name : String) : Bool :=
  let stem := name.toList.take (name.length - 4)
  let extension := name.toList.drop (name.length - 4)
  extension.map Char.toLower = ".exe".toList && stem.all isPlain && 1 ≤ stem.length && stem.length ≤ 260

def startsWith (s start : String) : Bool := start.toList.isPrefixOf s.toList

/-- The checks of `host`, which is an object. -/
def checkHost (host : Json) : Verdict :=
  match (host.field? "targetProcessName").bind Json.str? with
  | none => .rejected "host.targetProcessName must be a string"
  | some targetName =>
    if !isPlainExecutable targetName then .rejected "host.targetProcessName must be a plain executable filename"
    else if !(host.field? "video").any Json.isObject then .rejected "host.video must be an object"
    else .valid

def checkProduction (production : Json) : Verdict :=
  match value Json.str? "" production "signalingUrl", value Json.str? "" production "matchmakerUrl" with
  | some signaling, some matchmaker =>
    if !startsWith signaling "wss://" || !startsWith matchmaker "https://" then
      .rejected "production endpoints require wss:// signaling and https:// matchmaking"
    else .valid
  | _, _ => .thrown

def checkNetwork (network : Json) : Verdict :=
  if !network.isObject then .rejected "network must be an object"
  else
    match value Json.str? "local" network "mode" with
    | none => .thrown
    | some mode =>
      if mode ≠ "local" && mode ≠ "production" then .rejected "network.mode must be local or production"
      else if mode = "production" then
        match value some (.obj []) network "production" with
        | none => .thrown
        | some production => checkProduction production
      else .valid

def checkUpdate (update : Option Json) : Verdict :=
  match update with
  | none => .valid
  | some update =>
    if !update.isObject then .rejected "update must be an object"
    else
      match value Json.str? "stable" update "channel" with
      | none => .thrown
      | some channel =>
        if channel ≠ "stable" && channel ≠ "beta" then .rejected "update.channel must be stable or beta" else .valid

/-- `config[key] = value`, at an object. -/
def setMember (key : String) (value : Json) : Json → Json
  | .obj fields => .obj (assign key value fields)
  | j => j

def Document.set (config : Document) (key : String) (value : Document) : Document where
  value := setMember key value.value config.value
  ordered := by
    have := config.ordered
    generalize config.value = j at this
    cases this with
    | obj hsorted hmembers =>
      have hs := OrderedFields.assign ⟨hsorted, hmembers⟩ key value.ordered
      exact Ordered.obj hs.sorted hs.members
    | _ => constructor <;> assumption

/-- The network a configuration without one is given. -/
def defaultNetwork : Document where
  value := .obj [("mode", .str "local"), ("ports", .obj [("matchmaker", .int 3000), ("signaling", .int 3002)]),
    ("production", .obj [("matchmakerUrl", .str ""), ("signalingUrl", .str "")])]
  ordered := by
    have hports : Ordered (.obj [("matchmaker", .int 3000), ("signaling", .int 3002)]) := by
      apply Ordered.obj (by decide)
      simp [Ordered.int]
    have hproduction : Ordered (.obj [("matchmakerUrl", .str ""), ("signalingUrl", .str "")]) := by
      apply Ordered.obj (by decide)
      simp [Ordered.str]
    apply Ordered.obj (by decide)
    simp [Ordered.str, hports, hproduction]

/-- The configuration as it is left, `migrated`, and how the call ends. -/
structure Outcome where
  config : Document
  migrated : Bool
  verdict : Verdict

/-- From the check of `network` on. -/
def validateNetwork (config : Document) (migrated : Bool) : Outcome :=
  match checkNetwork ((config.value.field? "network").getD .null) with
  | .valid => ⟨config, migrated, checkUpdate (config.value.field? "update")⟩
  | verdict => ⟨config, migrated, verdict⟩

/-- From the check of the version and of `host` on. -/
def validateHost (config : Document) (migrated : Bool) (version : Int) : Outcome :=
  if version ≠ kCurrentSchemaVersion || !(config.value.field? "host").any Json.isObject then
    ⟨config, migrated, .rejected "Configuration is missing a valid host object"⟩
  else
    match checkHost ((config.value.field? "host").getD .null) with
    | .valid =>
      if !config.value.contains "network" then validateNetwork (config.set "network" defaultNetwork) true
      else validateNetwork config migrated
    | verdict => ⟨config, migrated, verdict⟩

section

variable (cast : ℚ → Int)

/-- `get<int>` -/
def getInt : Json → Option Int
  | .bool b => some (if b then 1 else 0)
  | .int n => some (wrap 32 n)
  | .float q => some (cast q)
  | _ => none

/-- `ValidateAndMigrate` -/
def validateAndMigrate (config : Document) : Outcome :=
  if !config.value.isObject then ⟨config, false, .rejected "Configuration root must be an object"⟩
  else
    match value (getInt cast) 0 config.value "schemaVersion" with
    | none => ⟨config, false, .thrown⟩
    | some version =>
      if kCurrentSchemaVersion < version then
        ⟨config, false, .rejected "Configuration was created by a newer host version"⟩
      else if version = 0 then validateHost (config.set "schemaVersion" ⟨.int 1, .int 1⟩) true 1
      else validateHost config false version

end

theorem value_of_obj {α : Type} (get : Json → Option α) (default : α) {j : Json} (h : j.isObject = true)
    (key : String) : value get default j key = (j.field? key).elim (some default) get := by
  cases j with
  | obj fields =>
    change value get default (.obj fields) key = (fields.lookup key).elim (some default) get
    rw [value]
    cases fields.lookup key with
    | none => rfl
    | some v => rfl
  | _ => exact absurd h (by simp [Json.isObject])

theorem Document.field?_set {config : Document} (h : config.value.isObject = true) (key : String) (v : Document)
    (k : String) : (config.set key v).value.field? k = if k = key then some v.value else config.value.field? k := by
  change (setMember key v.value config.value).field? k = _
  cases hv : config.value with
  | obj fields => exact lookup_assign key k v.value fields
  | _ => exact absurd h (by simp [hv, Json.isObject])

theorem Document.isObject_set (config : Document) (key : String) (v : Document) :
    (config.set key v).value.isObject = config.value.isObject := by
  change (setMember key v.value config.value).isObject = _
  cases config.value with
  | _ => rfl

/-- Where the network is in order, it stays as it is. -/
theorem validateNetwork_valid {config : Document} {migrated : Bool}
    (h : (validateNetwork config migrated).verdict = .valid) (migrated' : Bool) :
    validateNetwork config migrated' = ⟨config, migrated', .valid⟩ := by
  unfold validateNetwork at h ⊢
  cases hn : checkNetwork ((config.value.field? "network").getD .null) with
  | valid =>
    rw [hn] at h
    exact congrArg (Outcome.mk config migrated') h
  | rejected error => exact absurd h (by simp [hn])
  | thrown => exact absurd h (by simp [hn])

theorem config_validateNetwork (config : Document) (migrated : Bool) :
    (validateNetwork config migrated).config = config := by
  unfold validateNetwork
  split
  · rfl
  · rfl

/-- A configuration that passes the checks is validated as it is. -/
theorem validateHost_again {config : Document} {migrated : Bool}
    (hhost : (config.value.field? "host").any Json.isObject = true)
    (hcheck : checkHost ((config.value.field? "host").getD .null) = .valid)
    (hnetwork : config.value.contains "network" = true)
    (h : (validateNetwork config migrated).verdict = .valid) :
    validateHost config false kCurrentSchemaVersion = ⟨config, false, .valid⟩ := by
  unfold validateHost
  rw [if_neg (by simp [hhost])]
  simp only [hcheck, hnetwork, Bool.not_true, Bool.false_eq_true, if_false]
  exact validateNetwork_valid h false

/-- The network apart, what was validated is what there was; and validating it again finds it so. -/
theorem validateHost_valid {config : Document} (hobj : config.value.isObject = true) {migrated : Bool} {version : Int}
    (h : (validateHost config migrated version).verdict = .valid) :
    version = kCurrentSchemaVersion ∧
      validateHost (validateHost config migrated version).config false version =
        ⟨(validateHost config migrated version).config, false, .valid⟩ ∧
      (validateHost config migrated version).config.value.isObject = true ∧
      ∀ key v, config.value.field? key = some v →
        (validateHost config migrated version).config.value.field? key = some v := by
  unfold validateHost at h
  by_cases hv : (version ≠ kCurrentSchemaVersion || !(config.value.field? "host").any Json.isObject) = true
  · rw [if_pos hv] at h
    exact absurd h (by simp)
  obtain ⟨hver, hhost⟩ : version = kCurrentSchemaVersion ∧ (config.value.field? "host").any Json.isObject = true := by
    simpa using hv
  rw [if_neg hv] at h
  cases hh : checkHost ((config.value.field? "host").getD .null) with
  | rejected error => exact absurd h (by simp [hh])
  | thrown => exact absurd h (by simp [hh])
  | valid =>
    subst hver
    simp only [hh] at h
    by_cases hn : (!config.value.contains "network") = true
    · rw [if_pos hn] at h
      have heq : (validateHost config migrated kCurrentSchemaVersion).config = config.set "network" defaultNetwork := by
        unfold validateHost
        rw [if_neg hv]
        simp only [hh]
        rw [if_pos hn, config_validateNetwork]
      have hfield := fun k => Document.field?_set hobj "network" defaultNetwork k
      have hsame : (config.set "network" defaultNetwork).value.field? "host" = config.value.field? "host" := by
        rw [hfield, if_neg (by decide)]
      rw [heq]
      refine ⟨rfl, validateHost_again (by rw [hsame]; exact hhost) (by rw [hsame]; exact hh) ?_ h, ?_, ?_⟩
      · rw [Json.contains, hfield, if_pos rfl]
        rfl
      · rw [Document.isObject_set]
        exact hobj
      · intro key v hkey
        rw [hfield, if_neg, hkey]
        rintro rfl
        rw [Json.contains, hkey] at hn
        exact absurd hn (by simp)
    · rw [if_neg hn] at h
      have heq : (validateHost config migrated kCurrentSchemaVersion).config = config := by
        unfold validateHost
        rw [if_neg hv]
        simp only [hh]
        rw [if_neg hn, config_validateNetwork]
      rw [heq]
      exact ⟨rfl, validateHost_again hhost hh (by simpa using hn) h, hobj, fun key v hkey => hkey⟩

section

variable (cast : ℚ → Int)

/-- What a configuration with a version of its own is validated to. -/
theorem validateAndMigrate_of_version {config : Document} (hobj : config.value.isObject = true) {version : Int}
    (hversion : value (getInt cast) 0 config.value "schemaVersion" = some version)
    (hle : version = kCurrentSchemaVersion) :
    validateAndMigrate cast config = validateHost config false version := by
  unfold validateAndMigrate
  rw [if_neg (by simp [hobj]), hversion]
  dsimp only
  rw [if_neg (by omega), if_neg]
  rw [hle]
  decide

theorem validateAndMigrate_valid {config : Document} (h : (validateAndMigrate cast config).verdict = .valid) :
    validateAndMigrate cast (validateAndMigrate cast config).config =
        ⟨(validateAndMigrate cast config).config, false, .valid⟩ ∧
      ∀ key v, config.value.field? key = some v → key ≠ "schemaVersion" →
        (validateAndMigrate cast config).config.value.field? key = some v := by
  cases hobj : config.value.isObject with
  | false => exact absurd h (by simp [validateAndMigrate, hobj])
  | true =>
    cases hversion : value (getInt cast) 0 config.value "schemaVersion" with
    | none => exact absurd h (by simp [validateAndMigrate, hobj, hversion])
    | some version =>
      by_cases hnewer : kCurrentSchemaVersion < version
      · exact absurd h (by simp [validateAndMigrate, hobj, hversion, hnewer])
      by_cases hzero : version = 0
      · have heq : validateAndMigrate cast config =
            validateHost (config.set "schemaVersion" ⟨.int 1, .int 1⟩) true 1 := by
          simp only [validateAndMigrate, hobj, hversion, hzero]
          rfl
        rw [heq] at h ⊢
        have hfield := fun k => Document.field?_set hobj "schemaVersion" ⟨.int 1, .int 1⟩ k
        obtain ⟨-, hagain, hobj', hkeep⟩ := validateHost_valid ((Document.isObject_set _ _ _).trans hobj) h
        refine ⟨?_, ?_⟩
        · rw [validateAndMigrate_of_version cast hobj' _ rfl]
          · exact hagain
          · rw [value_of_obj _ _ hobj', hkeep "schemaVersion" (.int 1) (by rw [hfield, if_pos rfl])]
            change some (wrap 32 1) = some kCurrentSchemaVersion
            decide
        · intro key v hkey hne
          exact hkeep key v (by rw [hfield, if_neg hne, hkey])
      · have heq : validateAndMigrate cast config = validateHost config false version := by
          simp only [validateAndMigrate, hobj, hversion, hnewer, hzero]
          rfl
        rw [heq] at h ⊢
        obtain ⟨hver, hagain, hobj', hkeep⟩ := validateHost_valid hobj h
        refine ⟨?_, fun key v hkey _ => hkeep key v hkey⟩
        rw [validateAndMigrate_of_version cast hobj' _ hver]
        · exact hagain
        · rw [value_of_obj _ _ hobj] at hversion
          rw [value_of_obj _ _ hobj']
          cases hf : config.value.field? "schemaVersion" with
          | none =>
            rw [hf] at hversion
            exact absurd (Option.some.inj hversion).symm hzero
          | some v =>
            rw [hf] at hversion
            rw [hkeep _ v hf]
            exact hversion

end

/-- **Completing and migrating a configuration keeps what the user has, and doing it twice is doing it once.** -/
theorem migration_idempotent (config defaults : Document) :
    (∀ path v, at? config.value path = some v → v.isObject = false →
      at? (config.mergeMissing defaults).value path = some v) ∧
    (∀ path v, at? config.value path = some v → v.isObject = true →
      ∃ w, at? (config.mergeMissing defaults).value path = some w ∧ w.isObject = true) ∧
    (∀ path, at? config.value path = none → at? (config.mergeMissing defaults).value path =
      if blocked config.value path then none else at? defaults.value path) ∧
    (config.mergeMissing defaults).mergeMissing defaults = config.mergeMissing defaults ∧
    ∀ cast : ℚ → Int, (validateAndMigrate cast config).verdict = .valid →
      validateAndMigrate cast (validateAndMigrate cast config).config =
          ⟨(validateAndMigrate cast config).config, false, .valid⟩ ∧
        ∀ key v, config.value.field? key = some v → key ≠ "schemaVersion" →
          (validateAndMigrate cast config).config.value.field? key = some v := by
  have hat : ∀ path v, at? config.value path = some v →
      at? (config.mergeMissing defaults).value path = layered (some v) (at? defaults.value path) := by
    intro path v h
    rw [← h]
    exact at?_mergeMissing config.ordered defaults.ordered (blocked_of_at? h)
  refine ⟨?_, ?_, ?_, ?_, fun cast h => validateAndMigrate_valid cast h⟩
  · intro path v h hv
    rw [hat path v h]
    cases at? defaults.value path with
    | none => rfl
    | some d => exact congrArg some (mergeMissing_of_not_both (by rw [hv, Bool.false_and]))
  · intro path v h hv
    rw [hat path v h]
    cases at? defaults.value path with
    | none => exact ⟨v, rfl, hv⟩
    | some d => exact ⟨_, rfl, (isObject_mergeMissing v d).trans hv⟩
  · intro path h
    cases hb : blocked config.value path with
    | true => exact at?_mergeMissing_of_blocked config.ordered defaults.ordered hb
    | false =>
      have := at?_mergeMissing config.ordered defaults.ordered hb
      rw [h] at this
      exact this
  · unfold Document.mergeMissing
    congr 1
    exact mergeMissing_idem config.ordered defaults.ordered

end ConfigStore
end Host
end CloudGaming
