/-
Module: GameServer.Db.BufferCounts
Purpose: The reference counts of the buffers that the main thread, the Redis worker and the MySQL worker hand to each
  other, what the three do with them, and which references are given back.
Trusted boundary: `malloc` succeeds; `RedisCommand` returns a reply, as it loops or ends the process otherwise; a
  request that MySQL refuses ends the process
Main exports: KGBuffer, KRedisClient.onRequest, KMysqlClient.onRequest, World.step, owns_activate, Counted, Accounted
-/
import Mathlib
import GameServer.Lib.Ownership
import GameServer.Lib.Runs

namespace GameServer.Db.BufferCounts

open Lib Lib.Ownership Function

/-! ## Buffers

A buffer is given back when its count reaches zero; whoever uses it afterwards uses freed memory.
-/

/-- The values of `KE_REQUEST_TYPE` that the bindings push. -/
inductive RequestType where
  | set
  | get
  | gets
  | del
  | hset
deriving Repr, DecidableEq

/-- What the bytes in and before a buffer say it is: `byType` of a request, or the packet type of a response. -/
inductive Content where
  | request (byType : RequestType)
  | respondCommon
  | respondMulti
deriving Repr, DecidableEq

/-- `KG_Buffer`, how often its memory was freed, and whether anybody used it afterwards. -/
structure KGBuffer where
  content : Content
  lRefCount : Int
  freed : Nat
  misused : Bool
deriving Repr, DecidableEq

namespace KGBuffer

/-- `DB_MemoryCreateBuffer`. -/
def create (content : Content) : KGBuffer := ⟨content, 1, 0, false⟩

def access (buffer : KGBuffer) : KGBuffer := { buffer with misused := buffer.misused || decide (0 < buffer.freed) }

def addRef (buffer : KGBuffer) : KGBuffer := { buffer.access with lRefCount := buffer.lRefCount + 1 }

def release (buffer : KGBuffer) : KGBuffer :=
  let lRefNow := buffer.lRefCount - 1
  { buffer.access with lRefCount := lRefNow, freed := if 0 < lRefNow then buffer.freed else buffer.freed + 1 }

/-- Its count reached 0 exactly once, after its last use, and never fell below. -/
def Balanced (buffer : KGBuffer) : Prop := buffer.lRefCount = 0 ∧ buffer.freed = 1 ∧ buffer.misused = false

instance (buffer : KGBuffer) : Decidable buffer.Balanced := inferInstanceAs (Decidable (_ ∧ _))

/-- A buffer that was used correctly and to which there are `n` references. -/
def holding (content : Content) (n : Nat) : KGBuffer := ⟨content, n, if n = 0 then 1 else 0, false⟩

theorem create_eq (content : Content) : create content = holding content 1 := rfl

@[simp] theorem holding_content (content : Content) (n : Nat) : (holding content n).content = content := rfl

theorem access_holding {content : Content} {n : Nat} (alive : 1 ≤ n) :
    (holding content n).access = holding content n := by
  have notZero : n ≠ 0 := by omega
  simp [access, holding, notZero]

theorem addRef_holding {content : Content} {n : Nat} (alive : 1 ≤ n) :
    (holding content n).addRef = holding content (n + 1) := by
  have notZero : n ≠ 0 := by omega
  simp [addRef, access, holding, notZero]

theorem release_holding {content : Content} {n : Nat} (alive : 1 ≤ n) :
    (holding content n).release = holding content (n - 1) := by
  obtain ⟨m, rfl⟩ : ∃ m, n = m + 1 := ⟨n - 1, by omega⟩
  cases m with
  | zero => rfl
  | succ m => simp [release, access, holding]

/-- A buffer is balanced when nobody holds it. -/
theorem balanced_holding {content : Content} {n : Nat} : (holding content n).Balanced ↔ n = 0 := by
  constructor
  · rintro ⟨zero, -, -⟩
    exact Int.ofNat_eq_zero.mp zero
  · rintro rfl
    exact ⟨rfl, rfl, rfl⟩

end KGBuffer

/-! ## What the threads do with them

The code of the threads, reduced to what it does to buffers, with the same order of its instructions.
-/

/-- Each thread takes from one queue: the main thread from `m_RespondQueue` of the Redis client, the workers from
`m_RequestQueue` of their clients. -/
inductive Thread where
  | main
  | redis
  | mysql
deriving Repr, DecidableEq

abbrev Code := Prog Thread Content

/-- `KDBClient::PushRequest`, and `PushRespond` when the queue is that of the main thread. -/
def pushTo (queue : Thread) (pBuffer : Nat) (next : Code) : Code :=
  .addRef pBuffer (.send queue pBuffer next)

/-- What the bindings have in common: a buffer of the type, its head, and `PushRedisRequest`. -/
def pushRedis (byType : RequestType) (next : Code) : Code :=
  .create (.request byType) fun pBuffer => .access pBuffer (pushTo .redis pBuffer next)

def pushRedisSet : Code → Code := pushRedis .set

def pushRedisGet : Code → Code := pushRedis .get

def pushRedisGets : Code → Code := pushRedis .gets

def pushRedisDel : Code → Code := pushRedis .del

def pushRedisHSet : Code → Code := pushRedis .hset

/-- The binding that pushes requests of a type. -/
def binding : RequestType → Code → Code
  | .set => pushRedisSet
  | .get => pushRedisGet
  | .gets => pushRedisGets
  | .del => pushRedisDel
  | .hset => pushRedisHSet

theorem binding_eq (byType : RequestType) : binding byType = pushRedis byType := by
  cases byType <;> rfl

namespace KRedisClient

/-- The copy of a request that goes to `PushMysqlRequest`. -/
def mirror (byType : RequestType) (pRequest : Nat) (next : Code) : Code :=
  .create (.request byType) fun pBuffer => .access pRequest (.access pBuffer (pushTo .mysql pBuffer next))

/-- `GenCommonRespond`, `DB_SetCommonHead`, `PushRespond` and the `SAFE_RELEASE` at the end of the handlers. -/
def respond (pRequest : Nat) (next : Code) : Code :=
  .access pRequest <|
  .create .respondCommon fun pCommonBuffer =>
  .access pCommonBuffer <|
  .access pRequest <|
  .access pCommonBuffer <|
  pushTo .main pCommonBuffer <|
  .release pCommonBuffer next

def onRequestSet (pRequestSet : Nat) (next : Code) : Code :=
  .access pRequestSet (mirror .set pRequestSet (respond pRequestSet next))

def onRequestGet (pRequestGet : Nat) (next : Code) : Code :=
  .access pRequestGet (respond pRequestGet next)

/-- The `SAFE_RELEASE` at the end is commented out. -/
def onRequestGets (pRequestGets : Nat) (next : Code) : Code :=
  .access pRequestGets <|
  .create .respondMulti fun pPackatBuffer =>
  .access pPackatBuffer <|
  .access pRequestGets <|
  .access pPackatBuffer <|
  pushTo .main pPackatBuffer next

/-- Nothing is sent back. -/
def onRequestDel (pRequestDel : Nat) (next : Code) : Code :=
  .access pRequestDel (mirror .del pRequestDel next)

def onRequestHSet (pRequestHSet : Nat) (next : Code) : Code :=
  .access pRequestHSet (mirror .hset pRequestHSet (respond pRequestHSet next))

/-- The switch on `byType`. -/
def onRequest (content : Content) (pBuffer : Nat) (next : Code) : Code :=
  .access pBuffer <|
    match content with
    | .request .set => onRequestSet pBuffer next
    | .request .get => onRequestGet pBuffer next
    | .request .gets => onRequestGets pBuffer next
    | .request .del => onRequestDel pBuffer next
    | .request .hset => onRequestHSet pBuffer next
    | .respondCommon | .respondMulti => next

/-- The switch on the packet type.  `OnDBResponse` reads the buffer and calls the scripts. -/
def onResponsed (content : Content) (pBuffer : Nat) (next : Code) : Code :=
  .access pBuffer <|
    match content with
    | .respondCommon | .respondMulti => .access pBuffer (.pause next)
    | .request _ => next

end KRedisClient

namespace KMysqlClient

/-- The switch on `byType`, as far as requests are mirrored.  The handlers create no buffers. -/
def onRequest (content : Content) (pBuffer : Nat) (next : Code) : Code :=
  .access pBuffer <|
    match content with
    | .request .set | .request .hset | .request .del => .access pBuffer next
    | .request .get | .request .gets | .respondCommon | .respondMulti => next

end KMysqlClient

/-- One round of the loop of `Activate`, or of `DBThreadActivate`, after the buffer was taken from the queue. -/
def activate (thread : Thread) (content : Content) (pPackage : Nat) : Code :=
  match thread with
  | .main => KRedisClient.onResponsed content pPackage (.release pPackage .done)
  | .redis => KRedisClient.onRequest content pPackage (.release pPackage .done)
  | .mysql => KMysqlClient.onRequest content pPackage (.release pPackage .done)

/-! ## Interleavings

The threads go on one instruction at a time, in any order, and scripts push requests whenever the main thread runs
them.
-/

/-- All buffers that were ever created, the queues, and what the threads still have to do. -/
structure World where
  heap : List KGBuffer
  queue : Thread → List Nat
  running : Thread → Code

def World.init : World where
  heap := []
  queue := fun _ => []
  running := fun _ => .done

/-- A script calls one of the bindings; a thread takes the next buffer from its queue; a thread goes on. -/
inductive Action where
  | push (byType : RequestType)
  | take (thread : Thread)
  | run (thread : Thread)
deriving Repr, DecidableEq

namespace World

def goOn (w : World) (thread : Thread) (next : Code) : World := { w with running := update w.running thread next }

def modify (w : World) (b : Nat) (f : KGBuffer → KGBuffer) : World := { w with heap := w.heap.modify b f }

def create (w : World) (content : Content) : World := { w with heap := w.heap ++ [.create content] }

def send (w : World) (queue : Thread) (b : Nat) : World :=
  { w with queue := update w.queue queue (w.queue queue ++ [b]) }

/-- A thread executes its next instruction. -/
def exec (w : World) (thread : Thread) : Option World :=
  match w.running thread with
  | .done => none
  | .pause next => some (w.goOn thread next)
  | .create content next => some ((w.create content).goOn thread (next w.heap.length))
  | .access b next => some ((w.modify b .access).goOn thread next)
  | .addRef b next => some ((w.modify b .addRef).goOn thread next)
  | .send queue b next => some ((w.send queue b).goOn thread next)
  | .release b next => some ((w.modify b .release).goOn thread next)

/-- The scripts run while the main thread has nothing else to do, or in the middle of a response. -/
def push (w : World) (byType : RequestType) : Option World :=
  match w.running .main with
  | .done => (w.goOn .main (binding byType .done)).exec .main
  | .pause next => (w.goOn .main (binding byType (.pause next))).exec .main
  | _ => none

/-- `PopRequest` or `PopRespond`, when the thread has released the buffer before. -/
def take (w : World) (thread : Thread) : Option World :=
  match w.running thread, w.queue thread with
  | .done, b :: rest =>
      (w.heap[b]?).map fun buffer =>
        { w with queue := update w.queue thread rest }.goOn thread (activate thread buffer.content b)
  | _, _ => none

def step (w : World) : Action → Option World
  | .push byType => w.push byType
  | .take thread => w.take thread
  | .run thread => w.exec thread

/-- Everything that was pushed has been handled. -/
def Drained (w : World) : Prop := ∀ thread, w.queue thread = [] ∧ w.running thread = .done

def contents (w : World) (b : Nat) : Option Content := (w.heap[b]?).map KGBuffer.content

end World

/-! ## Who gives which reference back

The discipline of each piece of code: what it holds when it begins, it has given back or passed on when it ends.
-/

/-- Of these buffers nobody gives back the reference of the creator: the bindings and `mirror` do not, and in
`onRequestGets` the line that does is commented out. -/
def lost : Content → Bool
  | .request _ | .respondMulti => true
  | .respondCommon => false

/-- What the switch of a thread has a case for. -/
def accepts : Thread → Content → Prop
  | .main, content => content = .respondCommon ∨ content = .respondMulti
  | .redis, content => ∃ byType, content = .request byType
  | .mysql, content => content = .request .set ∨ content = .request .hset ∨ content = .request .del

section Code

variable {kinds : Nat → Option Content} {held : Nat → Nat} {b : Nat} {next : Code}

theorem owns_pushRedis (byType : RequestType) (rest : Owns lost accepts kinds held next) :
    Owns lost accepts kinds held (pushRedis byType next) := by
  apply owns_create_lost rfl
  intro pBuffer isNew
  have known : update kinds pBuffer (some (.request byType)) pBuffer = some (.request byType) := by simp
  have alive : Alive lost (update kinds pBuffer (some (.request byType))) held pBuffer := .inr ⟨_, known, rfl⟩
  refine ⟨alive, ?_⟩
  exact owns_pass alive ⟨_, known, byType, rfl⟩ (rest.mono (grow_update isNew))

/-- The copy for MySQL is made and pushed by the code that holds the request. -/
theorem owns_mirror {byType : RequestType} (mirrored : accepts .mysql (.request byType)) (holds : 1 ≤ held b)
    (rest : Owns lost accepts kinds held next) :
    Owns lost accepts kinds held (KRedisClient.mirror byType b next) := by
  apply owns_create_lost rfl
  intro pBuffer isNew
  have known : update kinds pBuffer (some (.request byType)) pBuffer = some (.request byType) := by simp
  have alive : Alive lost (update kinds pBuffer (some (.request byType))) held pBuffer := .inr ⟨_, known, rfl⟩
  refine ⟨.inl holds, alive, ?_⟩
  exact owns_pass alive ⟨_, known, mirrored⟩ (rest.mono (grow_update isNew))

/-- The response gives the request back. -/
theorem owns_respond (holds : 1 ≤ held b) (rest : Owns lost accepts kinds held next) :
    Owns lost accepts kinds held (KRedisClient.respond b next) := by
  refine ⟨.inl holds, ?_⟩
  apply owns_create_kept rfl
  intro pCommonBuffer isNew noRef
  have different : b ≠ pCommonBuffer := by
    rintro rfl
    omega
  have own : 1 ≤ update held pCommonBuffer 1 pCommonBuffer := by simp
  have request : 1 ≤ update held pCommonBuffer 1 b := by
    rw [update_of_ne different]
    exact holds
  refine ⟨.inl own, .inl request, .inl own, ?_⟩
  apply owns_pass (.inl own) ⟨.respondCommon, by simp, .inl rfl⟩
  exact owns_release_own noRef (rest.mono (grow_update isNew))

/-- Here the release is missing. -/
theorem owns_onRequestGets (holds : 1 ≤ held b) (rest : Owns lost accepts kinds held next) :
    Owns lost accepts kinds held (KRedisClient.onRequestGets b next) := by
  refine ⟨.inl holds, ?_⟩
  apply owns_create_lost rfl
  intro pPackatBuffer isNew
  have known : update kinds pPackatBuffer (some .respondMulti) pPackatBuffer = some .respondMulti := by simp
  have alive : Alive lost (update kinds pPackatBuffer (some .respondMulti)) held pPackatBuffer :=
    .inr ⟨_, known, rfl⟩
  refine ⟨alive, .inl holds, alive, ?_⟩
  exact owns_pass alive ⟨_, known, .inr rfl⟩ (rest.mono (grow_update isNew))

theorem owns_redis_onRequest (content : Content) (holds : 1 ≤ held b) (rest : Owns lost accepts kinds held next) :
    Owns lost accepts kinds held (KRedisClient.onRequest content b next) := by
  have responds : Owns lost accepts kinds held (KRedisClient.respond b next) := owns_respond holds rest
  refine ⟨.inl holds, ?_⟩
  cases content with
  | respondCommon => exact rest
  | respondMulti => exact rest
  | request byType =>
      cases byType with
      | set => exact ⟨.inl holds, owns_mirror (.inl rfl) holds responds⟩
      | get => exact ⟨.inl holds, responds⟩
      | gets => exact owns_onRequestGets holds rest
      | del => exact ⟨.inl holds, owns_mirror (.inr (.inr rfl)) holds rest⟩
      | hset => exact ⟨.inl holds, owns_mirror (.inr (.inl rfl)) holds responds⟩

theorem owns_mysql_onRequest (content : Content) (holds : 1 ≤ held b) (rest : Owns lost accepts kinds held next) :
    Owns lost accepts kinds held (KMysqlClient.onRequest content b next) := by
  refine ⟨.inl holds, ?_⟩
  cases content with
  | respondCommon => exact rest
  | respondMulti => exact rest
  | request byType =>
      cases byType with
      | set => exact ⟨.inl holds, rest⟩
      | get => exact rest
      | gets => exact rest
      | del => exact ⟨.inl holds, rest⟩
      | hset => exact ⟨.inl holds, rest⟩

theorem owns_onResponsed (content : Content) (holds : 1 ≤ held b) (rest : Owns lost accepts kinds held next) :
    Owns lost accepts kinds held (KRedisClient.onResponsed content b next) := by
  refine ⟨.inl holds, ?_⟩
  cases content with
  | request byType => exact rest
  | respondCommon => exact ⟨.inl holds, rest⟩
  | respondMulti => exact ⟨.inl holds, rest⟩

/-- A thread that took a buffer from its queue gives this reference back, and no other. -/
theorem owns_activate (thread : Thread) (content : Content) (noRef : ∀ b, held b = 0) :
    Owns lost accepts kinds (update held b 1) (activate thread content b) := by
  have holds : 1 ≤ update held b 1 b := by simp
  have released : Owns lost accepts kinds (update held b 1) (.release b .done) := owns_release_own (noRef b) noRef
  cases thread with
  | main => exact owns_onResponsed content holds released
  | redis => exact owns_redis_onRequest content holds released
  | mysql => exact owns_mysql_onRequest content holds released

end Code

/-! ## All references are accounted for

The count of a buffer is the number of references that threads hold and that lie in queues, and one more where a
release is missing.
-/

def total (f : Thread → Nat) : Nat := f .main + f .redis + f .mysql

theorem le_total (f : Thread → Nat) (thread : Thread) : f thread ≤ total f := by
  cases thread <;> simp only [total] <;> omega

theorem total_update (f : Thread → Nat) (thread : Thread) (n : Nat) :
    total (update f thread n) + f thread = total f + n := by
  cases thread <;> simp [total] <;> omega

/-- The references that threads hold and that are in queues. -/
def World.references (w : World) (held : Thread → Nat → Nat) (b : Nat) : Nat :=
  total (fun thread => held thread b) + total fun thread => (w.queue thread).count b

/-- Every buffer counts the references there are to it and those that are lost; what is in a queue exists, and its
thread has a case for it. -/
structure Counted (w : World) (held : Thread → Nat → Nat) : Prop where
  counted : ∀ b content, w.contents b = some content →
    w.heap[b]? = some (.holding content (w.references held b + (lost content).toNat))
  fresh : ∀ b, w.contents b = none → w.references held b = 0
  queued : ∀ thread, ∀ b ∈ w.queue thread, ∃ content, w.contents b = some content ∧ accepts thread content

/-- Moreover what the threads still do gives back what they hold. -/
structure Accounted (w : World) (held : Thread → Nat → Nat) : Prop extends Counted w held where
  owns : ∀ thread, Owns lost accepts w.contents (held thread) (w.running thread)

section References

variable {w : World} {held : Thread → Nat → Nat} {thread : Thread} {b : Nat}

/-- A thread holds `n` references to `b` from now on. -/
def setHeld (held : Thread → Nat → Nat) (thread : Thread) (b n : Nat) : Thread → Nat → Nat :=
  update held thread (update (held thread) b n)

theorem setHeld_here (held : Thread → Nat → Nat) (thread : Thread) (b n : Nat) :
    (fun t => setHeld held thread b n t b) = update (fun t => held t b) thread n := by
  funext t
  by_cases same : t = thread
  · subst same
    simp [setHeld]
  · simp [setHeld, update_of_ne same]

theorem setHeld_elsewhere {c : Nat} (different : c ≠ b) (n : Nat) :
    (fun t => setHeld held thread b n t c) = fun t => held t c := by
  funext t
  by_cases same : t = thread
  · subst same
    simp [setHeld, update_of_ne different]
  · simp [setHeld, update_of_ne same]

/-- The references change with what a thread holds. -/
theorem references_setHeld (w : World) (held : Thread → Nat → Nat) (thread : Thread) (b n : Nat) :
    w.references (setHeld held thread b n) b + held thread b = w.references held b + n := by
  have changed := total_update (fun t => held t b) thread n
  simp only [World.references, setHeld_here]
  omega

theorem references_setHeld_elsewhere (w : World) (held : Thread → Nat → Nat) (thread : Thread) {c : Nat}
    (different : c ≠ b) (n : Nat) : w.references (setHeld held thread b n) c = w.references held c := by
  simp only [World.references, setHeld_elsewhere different]

/-- What a thread holds is among the references. -/
theorem held_le_references : held thread b ≤ w.references held b := by
  have part := le_total (fun t => held t b) thread
  simp only [World.references]
  omega

/-- A buffer that a thread may use has been created and is not freed. -/
theorem Counted.alive (c : Counted w held) (alive : Alive lost w.contents (held thread) b) :
    ∃ content, w.contents b = some content ∧ 1 ≤ w.references held b + (lost content).toNat := by
  rcases alive with holds | ⟨content, known, isLost⟩
  · have some_reference : 1 ≤ w.references held b := le_trans holds held_le_references
    cases known : w.contents b with
    | none =>
        have none_left := c.fresh b known
        omega
    | some content => exact ⟨content, rfl, by omega⟩
  · exact ⟨content, known, by simp [isLost]⟩

end References

@[simp] theorem KGBuffer.access_content (buffer : KGBuffer) : buffer.access.content = buffer.content := rfl

@[simp] theorem KGBuffer.addRef_content (buffer : KGBuffer) : buffer.addRef.content = buffer.content := rfl

@[simp] theorem KGBuffer.release_content (buffer : KGBuffer) : buffer.release.content = buffer.content := rfl

section Effects

variable {w : World} {held held' : Thread → Nat → Nat} {thread : Thread} {b : Nat}

theorem contents_modify {f : KGBuffer → KGBuffer} (keeps : ∀ buffer, (f buffer).content = buffer.content) :
    (w.modify b f).contents = w.contents := by
  funext c
  simp only [World.contents, World.modify, List.getElem?_modify]
  cases w.heap[c]? with
  | none => rfl
  | some buffer =>
      by_cases same : b = c
      · simp [same, keeps]
      · simp [same]

theorem contents_create (content : Content) :
    (w.create content).contents = update w.contents w.heap.length (some content) := by
  funext c
  by_cases same : c = w.heap.length
  · subst same
    simp [World.contents, World.create, KGBuffer.create]
  · rw [update_of_ne same]
    rcases Nat.lt_or_gt_of_ne same with before | behind
    · simp [World.contents, World.create, List.getElem?_append_left before]
    · have outside : w.heap.length ≤ c := by omega
      have outside' : (w.heap ++ [KGBuffer.create content]).length ≤ c := by
        simp only [List.length_append, List.length_singleton]
        omega
      simp only [World.contents, World.create, List.getElem?_eq_none outside, List.getElem?_eq_none outside']

theorem contents_length (w : World) : w.contents w.heap.length = none := by
  simp [World.contents]

/-- Something is done with one buffer that changes its count as the references to it change. -/
theorem Counted.modify {f : KGBuffer → KGBuffer} {content : Content} (c : Counted w held)
    (keeps : ∀ buffer, (f buffer).content = buffer.content) (known : w.contents b = some content)
    (here : f (.holding content (w.references held b + (lost content).toNat)) =
      .holding content (w.references held' b + (lost content).toNat))
    (elsewhere : ∀ d, d ≠ b → w.references held' d = w.references held d) :
    Counted (w.modify b f) held' := by
  have same_contents : (w.modify b f).contents = w.contents := contents_modify keeps
  refine ⟨fun d other knownD => ?_, fun d isNew => ?_, fun t d inQueue => ?_⟩
  · rw [same_contents] at knownD
    have before := c.counted d other knownD
    by_cases same : d = b
    · subst same
      rw [known] at knownD
      cases knownD
      have now : (w.modify d f).heap[d]? = (w.heap[d]?).map f := by simp [World.modify]
      rw [now, before, Option.map_some, here]
      rfl
    · have untouched : (w.modify b f).heap[d]? = w.heap[d]? := by
        simp [World.modify, Ne.symm same]
      rw [untouched, before, ← elsewhere d same]
      rfl
  · rw [same_contents] at isNew
    have different : d ≠ b := by
      rintro rfl
      simp [known] at isNew
    exact (elsewhere d different).trans (c.fresh d isNew)
  · rw [same_contents]
    exact c.queued t d inQueue

theorem Counted.access (c : Counted w held) (alive : Alive lost w.contents (held thread) b) :
    Counted (w.modify b .access) held := by
  obtain ⟨content, known, counts⟩ := c.alive alive
  exact c.modify (fun _ => rfl) known (KGBuffer.access_holding counts) fun _ _ => rfl

theorem Counted.addRef (c : Counted w held) (alive : Alive lost w.contents (held thread) b) :
    Counted (w.modify b .addRef) (setHeld held thread b (held thread b + 1)) := by
  obtain ⟨content, known, counts⟩ := c.alive alive
  have more := references_setHeld w held thread b (held thread b + 1)
  refine c.modify (fun _ => rfl) known ?_ fun d different => references_setHeld_elsewhere w held thread different _
  rw [KGBuffer.addRef_holding counts]
  congr 1
  omega

theorem Counted.release (c : Counted w held) (holds : 1 ≤ held thread b) :
    Counted (w.modify b .release) (setHeld held thread b (held thread b - 1)) := by
  obtain ⟨content, known, counts⟩ := c.alive (.inl holds)
  have fewer := references_setHeld w held thread b (held thread b - 1)
  have some_left : 1 ≤ w.references held b := le_trans holds held_le_references
  refine c.modify (fun _ => rfl) known ?_ fun d different => references_setHeld_elsewhere w held thread different _
  rw [KGBuffer.release_holding counts]
  congr 1
  omega

/-- A new buffer is held by its thread. -/
theorem Counted.create (c : Counted w held) (content : Content) :
    Counted (w.create content) (setHeld held thread w.heap.length (!lost content).toNat) := by
  have none_yet : w.references held w.heap.length = 0 := c.fresh _ (contents_length w)
  have created := references_setHeld w held thread w.heap.length (!lost content).toNat
  have none_held : held thread w.heap.length ≤ w.references held w.heap.length := held_le_references
  refine ⟨fun d other known => ?_, fun d isNew => ?_, fun t d inQueue => ?_⟩
  · rw [contents_create] at known
    by_cases same : d = w.heap.length
    · subst same
      have new_content : content = other := by simpa using known
      subst new_content
      have one : w.references (setHeld held thread w.heap.length (!lost content).toNat) w.heap.length +
          (lost content).toNat = 1 := by
        have either : (!lost content).toNat + (lost content).toNat = 1 := by cases lost content <;> rfl
        omega
      have now : (w.create content).heap[w.heap.length]? = some (.create content) := by simp [World.create]
      rw [now, KGBuffer.create_eq]
      exact congrArg (fun n => some (KGBuffer.holding content n)) one.symm
    · rw [update_of_ne same] at known
      have before := c.counted d other known
      have inside : d < w.heap.length := (List.getElem?_eq_some_iff.mp before).1
      have untouched : (w.create content).heap[d]? = w.heap[d]? := List.getElem?_append_left inside
      rw [untouched, before, ← references_setHeld_elsewhere w held thread same]
      rfl
  · rw [contents_create] at isNew
    have different : d ≠ w.heap.length := by
      rintro rfl
      simp at isNew
    rw [update_of_ne different] at isNew
    exact (references_setHeld_elsewhere w held thread different _).trans (c.fresh d isNew)
  · obtain ⟨other, known, accepted⟩ := c.queued t d inQueue
    refine ⟨other, ?_, accepted⟩
    rw [contents_create]
    exact grow_update (contents_length w) d other known

/-- References that move between a thread and a queue. -/
theorem Counted.move {queue : Thread → List Nat} (c : Counted w held)
    (same : ∀ d, { w with queue := queue }.references held' d = w.references held d)
    (queued : ∀ t, ∀ d ∈ queue t, ∃ content, w.contents d = some content ∧ accepts t content) :
    Counted { w with queue := queue } held' := by
  refine ⟨fun d content known => ?_, fun d isNew => ?_, queued⟩
  · rw [same]
    exact c.counted d content known
  · rw [same]
    exact c.fresh d isNew

theorem queued_update (w : World) (thread : Thread) (entries : List Nat) (d : Nat) :
    (fun t => (update w.queue thread entries t).count d) =
      update (fun t => (w.queue t).count d) thread (entries.count d) := by
  funext t
  by_cases same : t = thread
  · subst same
    simp
  · simp [update_of_ne same]

/-- A buffer goes from a thread into a queue. -/
theorem Counted.send {queue : Thread} {content : Content} (c : Counted w held) (holds : 1 ≤ held thread b)
    (known : w.contents b = some content) (accepted : accepts queue content) :
    Counted (w.send queue b) (setHeld held thread b (held thread b - 1)) := by
  apply c.move
  · intro d
    have longer := total_update (fun t => (w.queue t).count d) queue ((w.queue queue ++ [b]).count d)
    simp only [World.references, queued_update]
    by_cases same : d = b
    · subst same
      have fewer := total_update (fun t => held t d) thread (held thread d - 1)
      simp only [List.count_append, List.count_singleton_self] at longer
      simp only [setHeld_here, List.count_append, List.count_singleton_self]
      omega
    · have not_sent : [b].count d = 0 := by simp [Ne.symm same]
      simp only [List.count_append, not_sent] at longer
      simp only [setHeld_elsewhere same, List.count_append, not_sent]
      omega
  · intro t d inQueue
    by_cases same : t = queue
    · subst same
      rw [update_self, List.mem_append, List.mem_singleton] at inQueue
      rcases inQueue with before | rfl
      · exact c.queued t d before
      · exact ⟨content, known, accepted⟩
    · rw [update_of_ne same] at inQueue
      exact c.queued t d inQueue

/-- And from a queue to its thread. -/
theorem Counted.take {rest : List Nat} (c : Counted w held) (front : w.queue thread = b :: rest) :
    Counted { w with queue := update w.queue thread rest } (setHeld held thread b (held thread b + 1)) := by
  apply c.move
  · intro d
    have shorter := total_update (fun t => (w.queue t).count d) thread (rest.count d)
    simp only [World.references, queued_update]
    by_cases same : d = b
    · subst same
      have more := total_update (fun t => held t d) thread (held thread d + 1)
      simp only [front, List.count_cons_self] at shorter
      simp only [setHeld_here]
      omega
    · rw [front, List.count_cons_of_ne (Ne.symm same)] at shorter
      simp only [setHeld_elsewhere same]
      omega
  · intro t d inQueue
    by_cases same : t = thread
    · subst same
      rw [update_self] at inQueue
      exact c.queued t d (by simp [front, inQueue])
    · rw [update_of_ne same] at inQueue
      exact c.queued t d inQueue

end Effects

end GameServer.Db.BufferCounts
