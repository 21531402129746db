import CloudGaming.Async.Along
import Mathlib.Data.List.Perm.Subperm
/-!
# TexturePool — the copy textures of the capture, between its callback and the encoder

The callback takes a texture for every frame that is selected, copies the frame into it and queues it; the consumer
takes the newest frame that is queued and gives its texture back.  Every section under `g_queueMutex` is a step; the
callback is under `g_callbackMutex`, so it holds one texture at most between its two sections.
-/
namespace CloudGaming
namespace Host
namespace TexturePool

open Async

/-- What `TextureMatches` compares. -/
structure TextureDesc where
  width : Nat
  height : Nat
  format : Nat
  deriving DecidableEq, Repr

/-- A texture; `id` is history, the number of textures created before it. -/
structure Texture where
  id : Nat
  desc : TextureDesc
  deriving DecidableEq, Repr

/-- `g_maxQueuedFrames`, which `SetMaxQueuedFrames` keeps positive, and `g_copyPoolSize`, as `StartCapture` raises it. -/
structure Sizes where
  maxQueuedFrames : Nat
  copyPoolSize : Nat
  queue_pos : 0 < maxQueuedFrames
  queue_lt_pool : maxQueuedFrames < copyPoolSize

/-- `StartCapture`. -/
def Sizes.start (maxQueuedFrames copyPoolSize : Nat) (h : 0 < maxQueuedFrames) : Sizes :=
  ⟨maxQueuedFrames, max copyPoolSize (maxQueuedFrames + 1), h, by omega⟩

/-- The pool and the queue, and the textures the callback and the consumer hold, as `StartCapture` resets them.
`created` is history. -/
structure Pool where
  freeTextures : List Texture := []
  frameQueue : List Texture := []
  allocatedTextures : Nat := 0
  callback : Option Texture := none
  consumer : Option Texture := none
  created : Nat := 0
  deriving DecidableEq, Repr

def textureMatches (sourceDesc : TextureDesc) (texture : Texture) : Bool := texture.desc = sourceDesc

/-- The loop that purges mismatches, over the free textures and the number of those allocated. -/
def purge (sourceDesc : TextureDesc) : List Texture → Nat → List Texture × Nat
  | [], allocated => ([], allocated)
  | texture :: rest, allocated =>
    if !textureMatches sourceDesc texture then
      purge sourceDesc rest (if 0 < allocated then allocated - 1 else allocated)
    else (texture :: (purge sourceDesc rest allocated).1, (purge sourceDesc rest allocated).2)

namespace Pool

section

variable (z : Sizes) (s : Pool)

/-- `ReturnTextureLocked` -/
def returnTextureLocked (texture : Texture) : Pool := { s with freeTextures := s.freeTextures ++ [texture] }

/-- Where the pool has room: `CreateTexture2D`, which succeeds or not. -/
def create (sourceDesc : TextureDesc) (succeeds : Bool) : Option Texture × Pool :=
  if z.copyPoolSize ≤ s.allocatedTextures then (none, s)
  else if !succeeds then (none, s)
  else (some ⟨s.created, sourceDesc⟩,
    { s with allocatedTextures := s.allocatedTextures + 1, created := s.created + 1 })

def acquireCopyTextureLocked (sourceDesc : TextureDesc) (succeeds : Bool) : Option Texture × Pool :=
  match s.freeTextures.find? (textureMatches sourceDesc) with
  | some texture => (some texture, { s with freeTextures := s.freeTextures.eraseP (textureMatches sourceDesc) })
  | none =>
    let purged := purge sourceDesc s.freeTextures s.allocatedTextures
    let s := { s with freeTextures := purged.1, allocatedTextures := purged.2 }
    match s.frameQueue with
    | texture :: rest =>
      if z.copyPoolSize ≤ s.allocatedTextures then
        if textureMatches sourceDesc texture then (some texture, { s with frameQueue := rest })
        else create z { s with frameQueue := rest, allocatedTextures := s.allocatedTextures - 1 } sourceDesc succeeds
      else create z s sourceDesc succeeds
    | [] => create z s sourceDesc succeeds

/-- The oldest frames are dropped until there is room for another. -/
def dropOldest : List Texture → List Texture → List Texture × List Texture
  | [], free => ([], free)
  | dropped :: rest, free =>
    if z.maxQueuedFrames ≤ (dropped :: rest).length then dropOldest rest (free ++ [dropped]) else (dropped :: rest, free)

def enqueue (texture : Texture) : Pool :=
  let (queue, free) := dropOldest z s.frameQueue s.freeTextures
  { s with frameQueue := queue ++ [texture], freeTextures := free }

/-- All but the newest frame are dropped. -/
def dropStale : List Texture → List Texture → List Texture × List Texture
  | dropped :: next :: rest, free => dropStale (next :: rest) (free ++ [dropped])
  | queue, free => (queue, free)

end

end Pool

/-- A step of the callback or of the consumer. -/
inductive Move where
  /-- the callback acquires a texture for a selected frame -/
  | acquire (sourceDesc : TextureDesc) (succeeds : Bool)
  /-- … and queues the frame it has copied -/
  | enqueue
  /-- the consumer takes the newest frame -/
  | take
  /-- `RecycleFrameTexture`, whether the frame was encoded or not -/
  | recycle
  deriving DecidableEq

def step (z : Sizes) (s : Pool) : Move → Option Pool
  | .acquire sourceDesc succeeds =>
    match s.callback with
    | some _ => none
    | none =>
      let r := s.acquireCopyTextureLocked z sourceDesc succeeds
      some { r.2 with callback := r.1 }
  | .enqueue => s.callback.map fun texture => { s.enqueue z texture with callback := none }
  | .take =>
    match s.consumer, Pool.dropStale s.frameQueue s.freeTextures with
    | none, (job :: rest, free) => some { s with frameQueue := rest, freeTextures := free, consumer := some job }
    | _, _ => none
  | .recycle => s.consumer.map fun texture => { s.returnTextureLocked texture with consumer := none }

/-- The textures of the pool, wherever they are. -/
def Pool.places (s : Pool) : List Texture :=
  s.freeTextures ++ (s.frameQueue ++ (s.callback.toList ++ s.consumer.toList))

/-! ## What holds in every state -/

structure Sound (z : Sizes) (s : Pool) : Prop where
  allocated : s.allocatedTextures = s.places.length
  bounded : s.allocatedTextures ≤ z.copyPoolSize
  nodup : (s.places.map (·.id)).Nodup
  old : ∀ texture ∈ s.places, texture.id < s.created

section

variable {z : Sizes} {s s' : Pool}

/-- Textures are moved about, or given up and counted off. -/
theorem Sound.of_subperm (h : Sound z s) (hp : s'.places.Subperm s.places)
    (ha : s'.allocatedTextures = s'.places.length) (hc : s'.created = s.created) : Sound z s' := by
  refine ⟨ha, ?_, ?_, fun texture ht => ?_⟩
  · have := hp.length_le
    have := h.allocated
    have := h.bounded
    omega
  · obtain ⟨l, hperm, hsub⟩ := hp
    exact (hperm.map _).nodup_iff.1 (h.nodup.sublist (hsub.map _))
  · rw [hc]
    exact h.old texture (hp.subset ht)

/-- … or only moved about. -/
theorem Sound.of_perm (h : Sound z s) (hp : s'.places.Perm s.places)
    (ha : s'.allocatedTextures = s.allocatedTextures) (hc : s'.created = s.created) : Sound z s' :=
  h.of_subperm hp.subperm (by rw [ha, h.allocated, hp.length_eq]) hc

/-- What is purged is counted off. -/
theorem purge_eq (sourceDesc : TextureDesc) : ∀ (free : List Texture) (allocated : Nat),
    purge sourceDesc free allocated =
      (free.filter (textureMatches sourceDesc), allocated - free.countP fun t => !textureMatches sourceDesc t)
  | [], _ => rfl
  | texture :: rest, allocated => by
    rw [purge]
    by_cases hm : textureMatches sourceDesc texture = true
    · rw [if_neg (by simp [hm]), purge_eq sourceDesc rest, List.filter_cons_of_pos hm,
        List.countP_cons_of_neg (by simp [hm])]
    · rw [if_pos (by simpa using hm), purge_eq sourceDesc rest, List.filter_cons_of_neg hm,
        List.countP_cons_of_pos (by simpa using hm)]
      refine Prod.ext rfl ?_
      dsimp only
      split <;> omega

/-- A texture that is created is none of the others, and the pool had room for it. -/
theorem sound_create (h : Sound z s) (hcallback : s.callback = none) (sourceDesc : TextureDesc) (succeeds : Bool) :
    Sound z { (s.create z sourceDesc succeeds).2 with callback := (s.create z sourceDesc succeeds).1 } := by
  have hsame : Sound z { s with callback := none } := by
    rw [← hcallback]
    exact h
  unfold Pool.create
  split
  · exact hsame
  rename_i hroom
  split
  · exact hsame
  · have hplaces : Pool.places { s with
        allocatedTextures := s.allocatedTextures + 1
        created := s.created + 1
        callback := some ⟨s.created, sourceDesc⟩ } =
          s.freeTextures ++ (s.frameQueue ++ (⟨s.created, sourceDesc⟩ :: s.consumer.toList)) := rfl
    have hold : s.places = s.freeTextures ++ (s.frameQueue ++ s.consumer.toList) := by
      rw [Pool.places, hcallback]
      rfl
    have hperm : (s.freeTextures ++ (s.frameQueue ++ (⟨s.created, sourceDesc⟩ :: s.consumer.toList))).Perm
        (⟨s.created, sourceDesc⟩ :: s.places) := by
      rw [hold, ← List.append_assoc, ← List.append_assoc]
      exact List.perm_middle
    refine ⟨?_, ?_, ?_, fun texture ht => ?_⟩
    · rw [hplaces, hperm.length_eq, List.length_cons, ← h.allocated]
    · exact Nat.not_le.1 hroom
    · rw [hplaces, (hperm.map _).nodup_iff, List.map_cons, List.nodup_cons]
      refine ⟨fun hin => ?_, h.nodup⟩
      obtain ⟨texture, ht, hid⟩ := List.mem_map.1 hin
      have := h.old texture ht
      dsimp only at hid
      omega
    · rw [hplaces] at ht
      rcases List.mem_cons.1 (hperm.subset ht) with rfl | ht
      · exact Nat.lt_succ_self _
      · exact Nat.lt_succ_of_lt (h.old texture ht)

/-- No free texture matches: they are purged. -/
theorem sound_purge (h : Sound z s) {sourceDesc : TextureDesc}
    (hnone : s.freeTextures.find? (textureMatches sourceDesc) = none) :
    purge sourceDesc s.freeTextures s.allocatedTextures = ([], s.allocatedTextures - s.freeTextures.length) ∧
      Sound z { s with freeTextures := [], allocatedTextures := s.allocatedTextures - s.freeTextures.length } := by
  have hall : ∀ t ∈ s.freeTextures, ¬ textureMatches sourceDesc t = true := List.find?_eq_none.1 hnone
  constructor
  · rw [purge_eq, List.filter_eq_nil_iff.2 hall, List.countP_eq_length.2 fun t ht => by simpa using hall t ht]
  · refine h.of_subperm ((List.sublist_append_right _ _).subperm) ?_ rfl
    have := h.allocated
    rw [Pool.places, List.length_append] at this
    simp only [Pool.places, List.nil_append]
    omega

/-- The oldest queued frame gives up its texture, which is counted off. -/
theorem sound_reclaim (h : Sound z s) (texture : Texture) (rest : List Texture)
    (hq : s.frameQueue = texture :: rest) :
    Sound z { s with frameQueue := rest, allocatedTextures := s.allocatedTextures - 1 } := by
  have hsub : (s.freeTextures ++ (rest ++ (s.callback.toList ++ s.consumer.toList))).Sublist s.places := by
    rw [Pool.places, hq, List.cons_append]
    exact (List.append_sublist_append_left _).2 (List.sublist_cons_self _ _)
  refine h.of_subperm hsub.subperm ?_ rfl
  have := h.allocated
  rw [Pool.places, hq] at this
  simp only [Pool.places, List.length_append, List.length_cons] at this ⊢
  omega

/-- **What the callback acquires was free, or queued, or is new.** -/
theorem sound_acquire (h : Sound z s) (hcallback : s.callback = none) (sourceDesc : TextureDesc) (succeeds : Bool) :
    Sound z { (s.acquireCopyTextureLocked z sourceDesc succeeds).2 with
      callback := (s.acquireCopyTextureLocked z sourceDesc succeeds).1 } := by
  unfold Pool.acquireCopyTextureLocked
  cases hf : s.freeTextures.find? (textureMatches sourceDesc) with
  | some texture =>
    obtain ⟨hm, before, after, hsplit, hbefore⟩ := List.find?_eq_some_iff_append.1 hf
    have herase : s.freeTextures.eraseP (textureMatches sourceDesc) = before ++ after := by
      rw [hsplit, List.eraseP_append_right _ fun t ht => by simpa using hbefore t ht, List.eraseP_cons_of_pos hm]
    refine h.of_perm ?_ rfl rfl
    simp only [Pool.places, herase, hcallback, Option.toList_some, Option.toList_none, List.nil_append]
    rw [hsplit, List.append_assoc, List.append_assoc, List.cons_append]
    refine (List.perm_append_left_iff before).2 ?_
    rw [← List.append_assoc]
    exact List.perm_middle.trans (.of_eq (by simp))
  | none =>
    obtain ⟨hp, hpurged⟩ := sound_purge h hf
    dsimp only
    rw [hp]
    cases hq : s.frameQueue with
    | nil =>
      rw [hq] at hpurged
      exact sound_create hpurged hcallback sourceDesc succeeds
    | cons texture rest =>
      rw [hq] at hpurged
      dsimp only
      split
      · split
        · -- the oldest queued frame is overwritten
          refine hpurged.of_perm ?_ rfl rfl
          simp only [Pool.places, hcallback, Option.toList_some, Option.toList_none, List.nil_append,
            List.cons_append]
          exact List.perm_middle
        · have hreclaimed := sound_reclaim hpurged texture rest rfl
          exact sound_create hreclaimed hcallback sourceDesc succeeds
      · exact sound_create hpurged hcallback sourceDesc succeeds

theorem create_isSome {sourceDesc : TextureDesc} (h : s.allocatedTextures < z.copyPoolSize) :
    (s.create z sourceDesc true).1.isSome = true := by
  unfold Pool.create
  rw [if_neg (Nat.not_le.2 h)]
  rfl

/-- **Only where a texture cannot be created is a frame dropped for want of one**: beside the one the consumer holds
there is room in the pool, or a frame is queued. -/
theorem acquire_isSome (h : Sound z s) (hcallback : s.callback = none) (sourceDesc : TextureDesc) :
    (s.acquireCopyTextureLocked z sourceDesc true).1.isSome = true := by
  unfold Pool.acquireCopyTextureLocked
  cases hf : s.freeTextures.find? (textureMatches sourceDesc) with
  | some texture => rfl
  | none =>
    obtain ⟨hp, hpurged⟩ := sound_purge h hf
    have hcount := hpurged.allocated
    have hbound := hpurged.bounded
    have hpool := z.queue_lt_pool
    have hqueue := z.queue_pos
    have hconsumer := Option.length_toList_le (o := s.consumer)
    simp only [Pool.places, hcallback, Option.toList_none, List.nil_append, List.length_append] at hcount hbound
    dsimp only
    rw [hp]
    cases hq : s.frameQueue with
    | nil =>
      rw [hq, List.length_nil] at hcount
      exact create_isSome (by dsimp only; omega)
    | cons texture rest =>
      rw [hq, List.length_cons] at hcount
      dsimp only
      split
      · split
        · rfl
        · exact create_isSome (by dsimp only; omega)
      · rename_i hroom
        exact create_isSome (Nat.not_le.1 hroom)

/-- Dropping takes frames from the front of the queue to the back of the free list. -/
theorem dropOldest_eq (z : Sizes) : ∀ queue free : List Texture,
    (Pool.dropOldest z queue free).2 ++ (Pool.dropOldest z queue free).1 = free ++ queue
  | [], _ => rfl
  | dropped :: rest, free => by
    rw [Pool.dropOldest]
    split
    · rw [dropOldest_eq z rest, List.append_assoc]
      rfl
    · rfl

theorem dropStale_eq : ∀ queue free : List Texture,
    (Pool.dropStale queue free).2 ++ (Pool.dropStale queue free).1 = free ++ queue
  | [], _ => rfl
  | [_], _ => rfl
  | dropped :: next :: rest, free => by
    rw [Pool.dropStale, dropStale_eq (next :: rest), List.append_assoc]
    rfl

/-- **Every step keeps the count and the textures apart.** -/
theorem sound_step (h : Sound z s) {m : Move} (hs : step z s m = some s') : Sound z s' := by
  cases m with
  | acquire sourceDesc succeeds =>
    cases hc : s.callback with
    | some texture => simp [step, hc] at hs
    | none =>
      simp only [step, hc, Option.some.injEq] at hs
      subst hs
      exact sound_acquire h hc sourceDesc succeeds
  | enqueue =>
    obtain ⟨texture, hc, rfl⟩ := Option.map_eq_some_iff.1 hs
    refine h.of_perm (.of_eq ?_) rfl rfl
    have hdrop := dropOldest_eq z s.frameQueue s.freeTextures
    simp only [Pool.places, Pool.enqueue, hc, Option.toList_none, Option.toList_some, List.nil_append]
    rw [← List.append_assoc, ← List.append_assoc, hdrop, List.append_assoc, List.append_assoc]
  | take =>
    simp only [step] at hs
    split at hs
    · rename_i job rest free hc hdrop
      cases hs
      have heq := dropStale_eq s.frameQueue s.freeTextures
      rw [hdrop] at heq
      refine h.of_perm ?_ rfl rfl
      simp only [Pool.places, hc, Option.toList_some, Option.toList_none, List.append_nil]
      rw [← List.append_assoc s.freeTextures, ← heq, List.append_assoc]
      refine (List.perm_append_left_iff free).2 ?_
      rw [← List.append_assoc]
      exact List.perm_append_singleton job (rest ++ s.callback.toList)
    · cases hs
  | recycle =>
    obtain ⟨texture, hc, rfl⟩ := Option.map_eq_some_iff.1 hs
    refine h.of_perm ?_ rfl rfl
    simp only [Pool.places, Pool.returnTextureLocked, hc, Option.toList_none, Option.toList_some, List.append_nil]
    rw [List.append_assoc]
    refine (List.perm_append_left_iff s.freeTextures).2 ?_
    rw [← List.append_assoc s.frameQueue]
    exact (List.perm_append_singleton texture (s.frameQueue ++ s.callback.toList)).symm

end

/-- The textures that are allocated are those in the four places, no more than the pool is to have, and each is in one
place. -/
def Conserved (z : Sizes) (s : Pool) : Prop :=
  s.allocatedTextures =
      s.freeTextures.length + s.frameQueue.length + s.callback.toList.length + s.consumer.toList.length ∧
    s.allocatedTextures ≤ z.copyPoolSize ∧
    ((s.freeTextures ++ (s.frameQueue ++ (s.callback.toList ++ s.consumer.toList))).map (·.id)).Nodup

theorem conserved_of_sound {z : Sizes} {s : Pool} (h : Sound z s) : Conserved z s := by
  refine ⟨?_, h.bounded, h.nodup⟩
  rw [h.allocated, Pool.places]
  simp only [List.length_append]
  omega

/-- **No texture of the pool is lost or in two places**, however the callback and the consumer take turns. -/
theorem pool_conserved (z : Sizes) (moves : List Move) : Throughout (step z) (Conserved z) {} moves :=
  (Throughout.of_along (c := fun _ _ => True) (fun _ _ _ h _ hs => sound_step h hs)
    ⟨rfl, Nat.zero_le _, by simp [Pool.places], by simp [Pool.places]⟩ along_true).mono fun _ h => conserved_of_sound h

/-- The second frame overwrites the first, which is still queued. -/
example :
    let frame : Move := .acquire ⟨1920, 1080, 87⟩ true
    (after (step (Sizes.start 1 2 (by decide))) {} [frame, .enqueue, frame, .enqueue, frame]).map
      (fun s => (s.allocatedTextures, s.frameQueue.length, s.callback)) = some (2, 1, some ⟨0, ⟨1920, 1080, 87⟩⟩) := by
  decide

end TexturePool
end Host
end CloudGaming
