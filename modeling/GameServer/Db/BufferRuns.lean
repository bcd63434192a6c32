/-
Module: GameServer.Db.BufferRuns
Purpose: For every interleaving of the main thread and the two workers: all references stay accounted for, every run
  can be completed, and which buffers are freed in the end.
Trusted boundary: none
Main exports: accounted_run, counts_of_run, drained_count, drains, buffers_balanced_iff
-/
import GameServer.Db.BufferCounts

namespace GameServer.Db.BufferCounts

open Lib Lib.Ownership Function

/-! ## One step, and all of them

Every instruction keeps the references accounted for, so every run does.
-/

section Steps

variable {w v w' : World} {held : Thread → Nat → Nat} {thread : Thread}

/-- One thread goes on; the others have what they had. -/
theorem Accounted.goOn {mine : Nat → Nat} {next : Code} (acc : Accounted w held)
    (counted : Counted v (update held thread mine)) (running : v.running = w.running)
    (grow : ∀ b content, w.contents b = some content → v.contents b = some content)
    (rest : Owns lost accepts v.contents mine next) :
    Accounted (v.goOn thread next) (update held thread mine) := by
  refine ⟨⟨counted.counted, counted.fresh, counted.queued⟩, fun other => ?_⟩
  by_cases same : other = thread
  · subst same
    have now : (v.goOn other next).running other = next := by simp [World.goOn]
    rw [now, update_self]
    exact rest
  · have untouched : (v.goOn thread next).running other = w.running other := by
      simp [World.goOn, running, update_of_ne same]
    rw [untouched, update_of_ne same]
    exact (acc.owns other).mono grow

/-- Whatever a thread does next, all references stay accounted for. -/
theorem Accounted.exec (acc : Accounted w held) (executed : w.exec thread = some w') :
    ∃ held', Accounted w' held' := by
  have own := acc.owns thread
  have unchanged : update held thread (held thread) = held := update_eq_self thread held
  cases code : w.running thread with
  | done => simp [World.exec, code] at executed
  | pause next =>
      rw [code] at own
      simp only [World.exec, code, Option.some.injEq] at executed
      subst executed
      have counted : Counted w (update held thread (held thread)) := by
        rw [unchanged]
        exact acc.toCounted
      exact ⟨_, acc.goOn counted rfl (fun _ _ known => known) own⟩
  | create content next =>
      rw [code] at own
      simp only [World.exec, code, Option.some.injEq] at executed
      subst executed
      have isNew : w.contents w.heap.length = none := contents_length w
      have noRef : held thread w.heap.length = 0 := by
        have part : held thread w.heap.length ≤ w.references held w.heap.length := held_le_references
        have nothing := acc.fresh _ isNew
        omega
      refine ⟨_, acc.goOn (acc.create content) rfl ?_ ?_⟩
      · rw [contents_create]
        exact grow_update isNew
      · rw [contents_create]
        exact own _ isNew noRef
  | access b next =>
      rw [code] at own
      simp only [World.exec, code, Option.some.injEq] at executed
      subst executed
      have counted : Counted (w.modify b .access) (update held thread (held thread)) := by
        rw [unchanged]
        exact acc.access own.1
      have same : (w.modify b .access).contents = w.contents := contents_modify fun _ => rfl
      refine ⟨_, acc.goOn counted rfl (fun c other known => ?_) ?_⟩
      · rw [same]
        exact known
      · rw [same]
        exact own.2
  | addRef b next =>
      rw [code] at own
      simp only [World.exec, code, Option.some.injEq] at executed
      subst executed
      have same : (w.modify b .addRef).contents = w.contents := contents_modify fun _ => rfl
      refine ⟨_, acc.goOn (acc.addRef own.1) rfl (fun c other known => ?_) ?_⟩
      · rw [same]
        exact known
      · rw [same]
        exact own.2
  | send queue b next =>
      rw [code] at own
      simp only [World.exec, code, Option.some.injEq] at executed
      subst executed
      obtain ⟨holds, ⟨content, known, accepted⟩, rest⟩ := own
      exact ⟨_, acc.goOn (acc.send holds known accepted) rfl (fun _ _ knownHere => knownHere) rest⟩
  | release b next =>
      rw [code] at own
      simp only [World.exec, code, Option.some.injEq] at executed
      subst executed
      have same : (w.modify b .release).contents = w.contents := contents_modify fun _ => rfl
      refine ⟨_, acc.goOn (acc.release own.1) rfl (fun c other known => ?_) ?_⟩
      · rw [same]
        exact known
      · rw [same]
        exact own.2

/-- A script pushes a request. -/
theorem Accounted.push {byType : RequestType} (acc : Accounted w held) (pushed : w.push byType = some w') :
    ∃ held', Accounted w' held' := by
  have own := acc.owns .main
  have unchanged : update held .main (held .main) = held := update_eq_self Thread.main held
  have counted : Counted w (update held .main (held .main)) := by
    rw [unchanged]
    exact acc.toCounted
  have calls : ∀ next, Owns lost accepts w.contents (held .main) next →
      (w.goOn .main (binding byType next)).exec .main = some w' → ∃ held', Accounted w' held' := by
    intro next rest executed
    have called : Owns lost accepts w.contents (held .main) (binding byType next) := by
      rw [binding_eq]
      exact owns_pushRedis byType rest
    exact (acc.goOn counted rfl (fun _ _ known => known) called).exec executed
  cases code : w.running .main with
  | done =>
      rw [code] at own
      simp only [World.push, code] at pushed
      exact calls _ own pushed
  | pause next =>
      rw [code] at own
      simp only [World.push, code] at pushed
      exact calls _ own pushed
  | create content next => simp [World.push, code] at pushed
  | access b next => simp [World.push, code] at pushed
  | addRef b next => simp [World.push, code] at pushed
  | send queue b next => simp [World.push, code] at pushed
  | release b next => simp [World.push, code] at pushed

/-- A thread that takes a buffer has finished its round before. -/
theorem take_cases (taken : w.take thread = some w') :
    ∃ b rest buffer, w.running thread = .done ∧ w.queue thread = b :: rest ∧ w.heap[b]? = some buffer ∧
      w' = { w with queue := update w.queue thread rest }.goOn thread (activate thread buffer.content b) := by
  simp only [World.take] at taken
  split at taken
  · rename_i b rest code front
    obtain ⟨buffer, found, result⟩ := Option.map_eq_some_iff.mp taken
    exact ⟨b, rest, buffer, code, front, found, result.symm⟩
  · cases taken

/-- A thread takes a buffer. -/
theorem Accounted.take (acc : Accounted w held) (taken : w.take thread = some w') :
    ∃ held', Accounted w' held' := by
  obtain ⟨b, rest, buffer, code, front, found, rfl⟩ := take_cases taken
  have idle : ∀ c, held thread c = 0 := by
    have own := acc.owns thread
    rw [code] at own
    exact own
  have one : held thread b + 1 = 1 := by rw [idle b]
  refine ⟨_, acc.goOn (acc.toCounted.take front) rfl (fun _ _ known => known) ?_⟩
  rw [one]
  exact owns_activate thread buffer.content idle

theorem accounted_step {action : Action} (acc : ∃ held, Accounted w held) (stepped : w.step action = some w') :
    ∃ held', Accounted w' held' := by
  obtain ⟨held, acc⟩ := acc
  cases action with
  | push byType => exact acc.push stepped
  | take thread => exact acc.take stepped
  | run thread => exact acc.exec stepped

end Steps

/-- The start. -/
theorem accounted_init : Accounted .init fun _ _ => 0 where
  counted := fun b content known => by simp [World.init, World.contents] at known
  fresh := fun b isNew => rfl
  queued := fun thread b inQueue => by simp [World.init] at inQueue
  owns := fun thread b => rfl

/-- The run lemma. -/
theorem accounted_run {actions : List Action} {w : World} (run : runSteps World.step .init actions = some w) :
    ∃ held, Accounted w held :=
  runSteps_invariant (fun _ _ _ acc stepped => accounted_step acc stepped) ⟨_, accounted_init⟩ run

/-- In no interleaving does a count fall below 0, is a buffer freed twice, or used after it was freed. -/
theorem counts_of_run {actions : List Action} {w : World} (run : runSteps World.step .init actions = some w)
    {buffer : KGBuffer} (created : buffer ∈ w.heap) : ∃ n, buffer = .holding buffer.content n := by
  obtain ⟨held, acc⟩ := accounted_run run
  obtain ⟨b, found⟩ := List.getElem?_of_mem created
  have known : w.contents b = some buffer.content := by simp [World.contents, found]
  have counted := acc.counted b buffer.content known
  rw [found] at counted
  exact ⟨_, Option.some.inj counted⟩

/-- When everything has been handled, the references that are left are the lost ones. -/
theorem drained_count {actions : List Action} {w : World} (run : runSteps World.step .init actions = some w)
    (drained : w.Drained) {buffer : KGBuffer} (created : buffer ∈ w.heap) :
    buffer = .holding buffer.content (lost buffer.content).toNat := by
  obtain ⟨held, acc⟩ := accounted_run run
  obtain ⟨b, found⟩ := List.getElem?_of_mem created
  have known : w.contents b = some buffer.content := by simp [World.contents, found]
  have nothing_held : ∀ thread, held thread b = 0 := by
    intro thread
    have own := acc.owns thread
    rw [(drained thread).2] at own
    exact own b
  have nothing_left : w.references held b = 0 := by
    simp [World.references, total, nothing_held, (drained _).1]
  have counted := acc.counted b buffer.content known
  rw [found, nothing_left, Nat.zero_add] at counted
  exact Option.some.inj counted

/-- Only the responses to `SET`, `GET` and `HSET` are freed. -/
theorem balanced_iff_common {actions : List Action} {w : World}
    (run : runSteps World.step .init actions = some w) (drained : w.Drained) {buffer : KGBuffer}
    (created : buffer ∈ w.heap) : buffer.Balanced ↔ buffer.content = .respondCommon := by
  have counted := drained_count run drained created
  have left : buffer.Balanced ↔ (lost buffer.content).toNat = 0 := by
    rw [counted]
    exact KGBuffer.balanced_holding
  rw [left]
  cases buffer.content with
  | request byType => simp [lost]
  | respondCommon => simp [lost]
  | respondMulti => simp [lost]

/-! ## Every run can be completed

Threads that go on without another push come to an end, with every queue empty.  Handlers send on to the main thread
and to the MySQL worker alone, so the queues can be emptied one after the other.
-/

section Completion

variable {w : World} {thread : Thread} {allowed : Thread → Prop}

/-- What a thread may have changed when it has gone on to the end of its code. -/
structure Finished (allowed : Thread → Prop) (thread : Thread) (w w' : World) : Prop where
  idle : w'.running thread = .done
  others : ∀ other, other ≠ thread → w'.running other = w.running other
  queues : ∀ other, ¬ allowed other → w'.queue other = w.queue other

/-- Without another push, a thread can go on to the end of its code. -/
def CanFinish (allowed : Thread → Prop) (thread : Thread) (w : World) : Prop :=
  ∃ actions w', runSteps World.step w actions = some w' ∧ (∀ byType, .push byType ∉ actions) ∧
    Finished allowed thread w w'

/-- One instruction more. -/
theorem CanFinish.of_exec {v : World} {next : Code} (executed : w.exec thread = some (v.goOn thread next))
    (running : v.running = w.running) (queues : ∀ other, ¬ allowed other → v.queue other = w.queue other)
    (rest : CanFinish allowed thread (v.goOn thread next)) : CanFinish allowed thread w := by
  obtain ⟨actions, w', run, quiet, finished⟩ := rest
  refine ⟨.run thread :: actions, w', ?_, ?_, finished.idle, ?_, ?_⟩
  · exact runSteps_cons_eq_some.mpr ⟨_, executed, run⟩
  · intro byType pushed
    exact quiet byType (by simpa using pushed)
  · intro other different
    have untouched : (v.goOn thread next).running other = w.running other := by
      simp [World.goOn, running, update_of_ne different]
    exact (finished.others other different).trans untouched
  · intro other excluded
    exact (finished.queues other excluded).trans (queues other excluded)

/-- No instruction blocks a thread. -/
theorem finishes (thread : Thread) (code : Code) (sends : SendsOnly allowed code) (running : w.running thread = code) :
    CanFinish allowed thread w := by
  have starts : ∀ (v : World) (next : Code), (v.goOn thread next).running thread = next := by
    intro v next
    simp [World.goOn]
  induction code generalizing w with
  | done => exact ⟨[], w, rfl, fun _ => List.not_mem_nil, running, fun _ _ => rfl, fun _ _ => rfl⟩
  | pause next ih =>
      have executed : w.exec thread = some (w.goOn thread next) := by simp [World.exec, running]
      exact .of_exec executed rfl (fun _ _ => rfl) (ih sends (starts w next))
  | create content next ih =>
      have executed : w.exec thread = some ((w.create content).goOn thread (next w.heap.length)) := by
        simp [World.exec, running]
      exact .of_exec executed rfl (fun _ _ => rfl) (ih _ (sends _) (starts _ _))
  | access b next ih =>
      have executed : w.exec thread = some ((w.modify b .access).goOn thread next) := by simp [World.exec, running]
      exact .of_exec executed rfl (fun _ _ => rfl) (ih sends (starts _ next))
  | addRef b next ih =>
      have executed : w.exec thread = some ((w.modify b .addRef).goOn thread next) := by simp [World.exec, running]
      exact .of_exec executed rfl (fun _ _ => rfl) (ih sends (starts _ next))
  | send queue b next ih =>
      have executed : w.exec thread = some ((w.send queue b).goOn thread next) := by simp [World.exec, running]
      refine .of_exec executed rfl (fun other excluded => ?_) (ih sends.2 (starts _ next))
      have different : other ≠ queue := by
        rintro rfl
        exact excluded sends.1
      simp [World.send, update_of_ne different]
  | release b next ih =>
      have executed : w.exec thread = some ((w.modify b .release).goOn thread next) := by simp [World.exec, running]
      exact .of_exec executed rfl (fun _ _ => rfl) (ih sends (starts _ next))

/-- The queues to which the handlers of a thread send, apart from what the scripts do. -/
def sendsTo : Thread → Thread → Prop
  | .redis, queue => queue ≠ .redis
  | .main, _ | .mysql, _ => False

/-- What the handlers of a thread push. -/
theorem activate_sends (thread : Thread) (content : Content) (b : Nat) :
    SendsOnly (sendsTo thread) (activate thread content b) := by
  cases thread with
  | main => cases content <;> simp [activate, KRedisClient.onResponsed, SendsOnly]
  | mysql =>
      cases content with
      | request byType => cases byType <;> simp [activate, KMysqlClient.onRequest, SendsOnly]
      | respondCommon => simp [activate, KMysqlClient.onRequest, SendsOnly]
      | respondMulti => simp [activate, KMysqlClient.onRequest, SendsOnly]
  | redis =>
      have responds : ∀ next : Code, SendsOnly (sendsTo .redis) next →
          SendsOnly (sendsTo .redis) (KRedisClient.respond b next) := by
        intro next rest
        simp [KRedisClient.respond, pushTo, SendsOnly, sendsTo]
        exact rest
      have mirrors : ∀ (byType : RequestType) (next : Code), SendsOnly (sendsTo .redis) next →
          SendsOnly (sendsTo .redis) (KRedisClient.mirror byType b next) := by
        intro byType next rest
        simp [KRedisClient.mirror, pushTo, SendsOnly, sendsTo]
        exact rest
      have released : SendsOnly (sendsTo .redis) (.release b .done : Code) := trivial
      cases content with
      | respondCommon => exact released
      | respondMulti => exact released
      | request byType =>
          cases byType with
          | set => exact mirrors .set _ (responds _ released)
          | get => exact responds _ released
          | gets => exact fun pPackatBuffer => ⟨by simp [sendsTo], released⟩
          | del => exact mirrors .del _ released
          | hset => exact mirrors .hset _ (responds _ released)

theorem not_sendsTo_self (thread : Thread) : ¬ sendsTo thread thread := by
  cases thread <;> simp [sendsTo]

/-- All threads are between two rounds. -/
def World.Idle (w : World) : Prop := ∀ thread, w.running thread = .done

/-- A run without another push. -/
def Reaches (w w' : World) : Prop :=
  ∃ actions, runSteps World.step w actions = some w' ∧ ∀ byType, .push byType ∉ actions

theorem Reaches.trans {w v w' : World} (first : Reaches w v) (second : Reaches v w') : Reaches w w' := by
  obtain ⟨actions, run, quiet⟩ := first
  obtain ⟨more, run', quiet'⟩ := second
  refine ⟨actions ++ more, ?_, fun byType pushed => ?_⟩
  · rw [runSteps_append, run]
    exact run'
  · rcases List.mem_append.mp pushed with before | behind
    · exact quiet byType before
    · exact quiet' byType behind

/-- The rest of a run keeps the references accounted for. -/
theorem Reaches.accounted {w w' : World} (reaches : Reaches w w') (acc : ∃ held, Accounted w held) :
    ∃ held, Accounted w' held := by
  obtain ⟨actions, run, -⟩ := reaches
  exact runSteps_invariant (fun _ _ _ acc stepped => accounted_step acc stepped) acc run

/-- A thread takes everything out of its queue; by the induction on what is left in it. -/
theorem empties (thread : Thread) {n : Nat} {w : World} (acc : ∃ held, Accounted w held) (idle : w.Idle)
    (left : (w.queue thread).length = n) :
    ∃ w', Reaches w w' ∧ w'.Idle ∧ w'.queue thread = [] ∧
      ∀ other, ¬ sendsTo thread other → other ≠ thread → w'.queue other = w.queue other := by
  induction n generalizing w with
  | zero => exact ⟨w, ⟨[], rfl, fun _ => List.not_mem_nil⟩, idle, List.length_eq_zero_iff.mp left, fun _ _ _ => rfl⟩
  | succ n ih =>
      obtain ⟨b, rest, front⟩ := List.exists_cons_of_length_eq_add_one left
      obtain ⟨held, accounted⟩ := acc
      obtain ⟨content, known, -⟩ := accounted.queued thread b (by simp [front])
      obtain ⟨buffer, found, -⟩ := Option.map_eq_some_iff.mp known
      let v := { w with queue := update w.queue thread rest }.goOn thread (activate thread buffer.content b)
      have taken : w.take thread = some v := by simp [World.take, idle thread, front, found, v]
      have code : v.running thread = activate thread buffer.content b := by simp [v, World.goOn]
      obtain ⟨actions, u, run, quiet, finished⟩ := finishes thread _ (activate_sends thread buffer.content b) code
      have reaches : Reaches w u := by
        refine ⟨.take thread :: actions, runSteps_cons_eq_some.mpr ⟨v, taken, run⟩, fun byType pushed => ?_⟩
        exact quiet byType (by simpa using pushed)
      have idle_again : u.Idle := by
        intro other
        by_cases same : other = thread
        · rw [same]
          exact finished.idle
        · have untouched : v.running other = w.running other := by simp [v, World.goOn, update_of_ne same]
          rw [finished.others other same, untouched]
          exact idle other
      have shorter : u.queue thread = rest := by
        rw [finished.queues thread (not_sendsTo_self thread)]
        simp [v, World.goOn]
      have fewer : (u.queue thread).length = n := by
        rw [front] at left
        rw [shorter]
        simpa using left
      obtain ⟨w', reaches', idle', empty, others⟩ := ih (reaches.accounted ⟨held, accounted⟩) idle_again fewer
      refine ⟨w', reaches.trans reaches', idle', empty, fun other excluded different => ?_⟩
      rw [others other excluded different, finished.queues other excluded]
      simp [v, World.goOn, update_of_ne different]

/-- One thread after the other comes to an end. -/
theorem finishes_all {w : World} : ∃ w', Reaches w w' ∧ w'.Idle := by
  obtain ⟨first, u, run, quiet, main⟩ := finishes (w := w) .main _ (sendsOnly_all _) rfl
  obtain ⟨second, v, run', quiet', redis⟩ := finishes (w := u) .redis _ (sendsOnly_all _) rfl
  obtain ⟨third, w', run'', quiet'', mysql⟩ := finishes (w := v) .mysql _ (sendsOnly_all _) rfl
  have to_v : Reaches u v := ⟨second, run', quiet'⟩
  have to_end : Reaches v w' := ⟨third, run'', quiet''⟩
  refine ⟨w', (Reaches.trans ⟨first, run, quiet⟩ to_v).trans to_end, fun thread => ?_⟩
  cases thread with
  | main => rw [mysql.others .main (by decide), redis.others .main (by decide), main.idle]
  | redis => rw [mysql.others .redis (by decide), redis.idle]
  | mysql => exact mysql.idle

/-- From every reachable state the threads come to an end, when nothing more is pushed. -/
theorem drains {actions : List Action} {w : World} (run : runSteps World.step .init actions = some w) :
    ∃ w', Reaches w w' ∧ w'.Drained := by
  have acc := accounted_run run
  obtain ⟨w₁, to₁, idle₁⟩ := finishes_all (w := w)
  have acc₁ := to₁.accounted acc
  obtain ⟨w₂, to₂, idle₂, redis₂, -⟩ := empties .redis acc₁ idle₁ rfl
  have acc₂ := to₂.accounted acc₁
  obtain ⟨w₃, to₃, idle₃, mysql₃, others₃⟩ := empties .mysql acc₂ idle₂ rfl
  have acc₃ := to₃.accounted acc₂
  obtain ⟨w₄, to₄, idle₄, main₄, others₄⟩ := empties .main acc₃ idle₃ rfl
  refine ⟨w₄, ((to₁.trans to₂).trans to₃).trans to₄, fun thread => ⟨?_, idle₄ thread⟩⟩
  cases thread with
  | main => exact main₄
  | redis => rw [others₄ .redis id (by decide), others₃ .redis id (by decide), redis₂]
  | mysql => rw [others₄ .mysql id (by decide), mysql₃]

end Completion

/-! ## Which buffers are freed

Buffers of requests are balanced when no request is pushed, and never otherwise.
-/

section Kept

variable {w w' : World} {b : Nat} {content : Content}

theorem contents_exec {thread : Thread} (executed : w.exec thread = some w') (known : w.contents b = some content) :
    w'.contents b = some content := by
  cases code : w.running thread with
  | done => simp [World.exec, code] at executed
  | create new next =>
      simp only [World.exec, code, Option.some.injEq] at executed
      subst executed
      have grown := contents_create (w := w) new
      exact (congrFun grown b).trans (grow_update (contents_length w) b content known)
  | access c next =>
      simp only [World.exec, code, Option.some.injEq] at executed
      subst executed
      have same : (w.modify c .access).contents = w.contents := contents_modify fun _ => rfl
      exact (congrFun same b).trans known
  | addRef c next =>
      simp only [World.exec, code, Option.some.injEq] at executed
      subst executed
      have same : (w.modify c .addRef).contents = w.contents := contents_modify fun _ => rfl
      exact (congrFun same b).trans known
  | release c next =>
      simp only [World.exec, code, Option.some.injEq] at executed
      subst executed
      have same : (w.modify c .release).contents = w.contents := contents_modify fun _ => rfl
      exact (congrFun same b).trans known
  | pause next =>
      simp only [World.exec, code, Option.some.injEq] at executed
      subst executed
      exact known
  | send queue c next =>
      simp only [World.exec, code, Option.some.injEq] at executed
      subst executed
      exact known

/-- The bindings are called between two rounds, or where the scripts handle a response. -/
theorem push_cases {byType : RequestType} (pushed : w.push byType = some w') :
    ∃ next, (w.goOn .main (pushRedis byType next)).exec .main = some w' := by
  rw [World.push, binding_eq] at pushed
  split at pushed
  · exact ⟨_, pushed⟩
  · exact ⟨_, pushed⟩
  · cases pushed

theorem contents_step {action : Action} (stepped : w.step action = some w') (known : w.contents b = some content) :
    w'.contents b = some content := by
  cases action with
  | push byType =>
      obtain ⟨next, executed⟩ := push_cases stepped
      exact contents_exec executed known
  | take thread =>
      obtain ⟨_, _, _, -, -, -, rfl⟩ := take_cases stepped
      exact known
  | run thread => exact contents_exec stepped known

/-- Buffers stay what they are. -/
theorem contents_run {actions : List Action} (run : runSteps World.step w actions = some w')
    (known : w.contents b = some content) : w'.contents b = some content :=
  runSteps_invariant (fun _ _ _ knownHere stepped => contents_step stepped knownHere) known run

/-- A push creates the buffer of the request. -/
theorem push_creates {byType : RequestType} (pushed : w.push byType = some w') :
    ∃ b, w'.contents b = some (.request byType) := by
  obtain ⟨next, executed⟩ := push_cases pushed
  have created : w' = (w.create (.request byType)).goOn .main
      (.access w.heap.length (pushTo .redis w.heap.length next)) := by
    simp only [World.exec, World.goOn, update_self, pushRedis, Option.some.injEq] at executed
    rw [← executed]
    simp only [World.create, World.goOn, update_idem]
  refine ⟨w.heap.length, ?_⟩
  rw [created]
  exact (congrFun (contents_create (w := w) (.request byType)) _).trans (update_self _ _ _)

/-- Every push leaves a buffer of its type. -/
theorem request_of_push {actions : List Action} {byType : RequestType}
    (run : runSteps World.step w actions = some w') (pushed : .push byType ∈ actions) :
    ∃ b, w'.contents b = some (.request byType) := by
  obtain ⟨before, behind, rfl⟩ := List.append_of_mem pushed
  rw [runSteps_append] at run
  obtain ⟨u, -, rest⟩ := Option.bind_eq_some_iff.mp run
  obtain ⟨v, stepped, rest⟩ := runSteps_cons_eq_some.mp rest
  obtain ⟨b, created⟩ := push_creates stepped
  exact ⟨b, contents_run rest created⟩

/-- Without a push nothing happens. -/
theorem quiet_run {actions : List Action} (run : runSteps World.step .init actions = some w)
    (quiet : ∀ byType, .push byType ∉ actions) : w = .init := by
  cases actions with
  | nil => exact (Option.some.inj run).symm
  | cons action actions =>
      obtain ⟨v, stepped, -⟩ := runSteps_cons_eq_some.mp run
      cases action with
      | push byType => exact absurd List.mem_cons_self (quiet byType)
      | take thread => cases stepped
      | run thread => cases stepped

end Kept

/-- However a run is completed, all buffers have been freed in the end exactly when nothing was pushed. -/
theorem buffers_balanced_iff {actions : List Action} {w : World}
    (run : runSteps World.step .init actions = some w) :
    (∀ w', Reaches w w' → w'.Drained → ∀ buffer ∈ w'.heap, buffer.Balanced) ↔
      ∀ byType, .push byType ∉ actions := by
  constructor
  · intro balanced byType pushed
    obtain ⟨w', reaches, drained⟩ := drains run
    obtain ⟨more, completed, quiet⟩ := reaches
    have whole : runSteps World.step .init (actions ++ more) = some w' := by
      rw [runSteps_append, run]
      exact completed
    obtain ⟨b, known⟩ := request_of_push whole (List.mem_append_left more pushed)
    obtain ⟨buffer, found, isRequest⟩ := Option.map_eq_some_iff.mp known
    have created : buffer ∈ w'.heap := List.mem_of_getElem? found
    have common :=
      (balanced_iff_common whole drained created).mp (balanced w' ⟨more, completed, quiet⟩ drained buffer created)
    rw [isRequest] at common
    cases common
  · intro quiet w' reaches drained buffer created
    obtain ⟨more, completed, quiet_more⟩ := reaches
    have nothing : w' = .init := by
      rw [quiet_run run quiet] at completed
      exact quiet_run completed quiet_more
    subst nothing
    cases created

theorem buffers_balanced_iff_example :
    ∃ w, runSteps World.step .init [.push .hset] = some w ∧
      ((∀ w', Reaches w w' → w'.Drained → ∀ buffer ∈ w'.heap, buffer.Balanced) ↔
        ∀ byType, .push byType ∉ [Action.push .hset]) :=
  ⟨_, rfl, buffers_balanced_iff rfl⟩

/-- A `GET`, its response, and the callback. -/
def getRun : List Action :=
  .push .get :: List.replicate 3 (.run .main) ++ .take .redis :: List.replicate 11 (.run .redis) ++
    .take .main :: List.replicate 4 (.run .main)

/-- The response is freed, the request is not. -/
theorem get_request_leaks :
    ¬ ∀ actions w, runSteps World.step .init actions = some w → w.Drained →
      ∀ buffer ∈ w.heap, buffer.Balanced := by
  intro balanced
  have drained := balanced getRun _ rfl fun thread => by cases thread <;> exact ⟨rfl, rfl⟩
  have request := drained ⟨.request .get, 1, 0, false⟩ (by decide)
  exact absurd request (by decide)

end GameServer.Db.BufferCounts
