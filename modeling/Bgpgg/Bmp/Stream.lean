import Bgpgg.Bmp.Task

namespace Bgpgg.Bmp

open Net Lib Peer BmpTask List

section

def ValidAll : List IpAddr → List (List BmpMessage × Attempt) → Prop
  | _, [] => True
  | up, (messages, _) :: rest => Valid up messages ∧ ValidAll (upAfter up messages) rest

def writes (sends : List (List BmpMessage × Attempt)) : List BmpMessage := sends.flatMap Prod.fst

theorem sendAll_good_before (client : BmpTcpClient) (sends : List (List BmpMessage × Attempt))
    (good : (client.sendAll sends).Good) : client.Good := by
  induction sends generalizing client with
  | nil => exact good
  | cons send rest ih => exact sendRaw_good_before client send.1 send.2 (ih _ good)

section

variable {client : BmpTcpClient} {up : List IpAddr} {sends : List (List BmpMessage × Attempt)}

theorem sendAll_good_iff (live : client.Live up) (valid : ValidAll up sends) :
    (client.sendAll sends).Good ↔ client.Good ∧ SendsSound up client sends := by
  induction sends generalizing client up with
  | nil => exact (and_iff_left trivial).symm
  | cons send rest ih =>
    obtain ⟨messages, attempt⟩ := send
    have here := sendRaw_good_iff attempt live valid.1
    constructor
    · intro good
      have first := here.mp (sendAll_good_before _ rest good)
      have later := (ih (sendRaw_live live valid.1 first.2) valid.2).mp good
      exact ⟨first.1, first.2, later.2⟩
    · rintro ⟨good, sound, later⟩
      exact (ih (sendRaw_live live valid.1 sound) valid.2).mpr ⟨here.mpr ⟨good, sound⟩, later⟩

theorem sendAll_live (live : client.Live up) (valid : ValidAll up sends) (sound : SendsSound up client sends) :
    (client.sendAll sends).Live (upAfter up (writes sends)) := by
  induction sends generalizing client up with
  | nil => exact live
  | cons send rest ih =>
    have next := ih (sendRaw_live live valid.1 sound.1) valid.2 sound.2
    rw [← upAfter_append] at next
    exact next

end

end

structure BmpTask.Ready (task : BmpTask) (flushed up : List IpAddr) : Prop where
  live : task.destination.Live flushed
  follows : Follows flushed task.batch
  plain : task.batch.filterMap BmpMessage.reports = []
  late : ∀ message ∈ task.batch, message.isInitiation = false
  ahead : upAfter flushed task.batch = up

structure FedTask where
  task : BmpTask
  given : List BmpOp

def Event.given : Event → List BmpOp
  | .op _ fresh _ => [fresh]
  | .statistics _ _ | .batchTimer _ | .closes _ _ => []

def openedBy (ops : List BmpOp) : List IpAddr := ops.foldl BmpOp.after []

namespace FedTask

def step (fed : FedTask) (event : Event) : FedTask := ⟨fed.task.step event, fed.given ++ event.given⟩

-- The sessions opened by the operations that no longer wait in the batch.
def flushed (fed : FedTask) : List IpAddr := openedBy (fed.given.take (fed.given.length - fed.task.batch.length))

def Sound (fed : FedTask) (event : Event) : Prop :=
  fed.task.phase = .looping → SendsSound fed.flushed fed.task.destination (fed.task.sends event)

instance (fed : FedTask) (event : Event) : Decidable (fed.Sound event) := by
  unfold Sound
  infer_instance

def Ready (fed : FedTask) : Prop := fed.task.Ready fed.flushed (openedBy fed.given)

end FedTask

section

variable {task : BmpTask} {flushed up : List IpAddr}

theorem convert_plain (now : Timestamp) (op : BmpOp) :
    (convertToBmp now op).reports = none ∧ (convertToBmp now op).isInitiation = false := by
  cases op <;> exact ⟨rfl, rfl⟩

theorem BmpTask.Ready.push (ready : task.Ready flushed up) (now : Timestamp) (op : BmpOp) (fits : op.Fits up) :
    ({ task with batch := task.batch ++ [convertToBmp now op] } : BmpTask).Ready flushed (op.after up) where
  live := ready.live
  follows := by
    rw [follows_append, ready.ahead]
    exact ⟨ready.follows, needs_convert now fits, trivial⟩
  plain := by
    rw [filterMap_append, ready.plain, nil_append, filterMap_cons_none (convert_plain now op).1, filterMap_nil]
  late := forall_mem_append.mpr ⟨ready.late, forall_mem_singleton.mpr (convert_plain now op).2⟩
  ahead := by
    rw [upAfter_append, ready.ahead]
    exact after_convert now op up

theorem BmpTask.Ready.valid (ready : task.Ready flushed up) (some : task.batch ≠ []) : Valid flushed task.batch :=
  ⟨some, ready.late, .inl ⟨ready.plain, ready.follows⟩⟩

theorem valid_termination (up : List IpAddr) : Valid up [terminationMessage] where
  written := cons_ne_nil _ _
  late := forall_mem_singleton.mpr rfl
  follows := .inl ⟨rfl, ⟨by rintro ip ⟨⟩, trivial⟩⟩

theorem validAll_statistics (now : Timestamp) (stats : List (BmpPeerStats × Attempt)) (up : List IpAddr) :
    ValidAll up (stats.map fun entry => ([statisticsMessage now entry.1], entry.2)) ∧
      upAfter up (writes (stats.map fun entry => ([statisticsMessage now entry.1], entry.2))) = up := by
  induction stats with
  | nil => exact ⟨trivial, rfl⟩
  | cons entry rest ih =>
    exact ⟨⟨⟨cons_ne_nil _ _, forall_mem_singleton.mpr rfl, .inr ⟨_, _, rfl⟩⟩, ih.1⟩, ih.2⟩

def Event.Fits (up : List IpAddr) : Event → Prop
  | .op _ given _ => given.Fits up
  | .statistics _ _ | .batchTimer _ | .closes _ _ => True

section

variable (ready : task.Ready flushed up)

include ready

theorem validAll_flush (attempt : Attempt) : ValidAll flushed (if task.batch.isEmpty then [] else [(task.batch, attempt)]) ∧
      upAfter flushed (writes (if task.batch.isEmpty then [] else [(task.batch, attempt)])) = up := by
  by_cases empty : task.batch.isEmpty = true
  · have none : task.batch = [] := isEmpty_iff.mp empty
    have ahead := ready.ahead
    rw [none] at ahead
    rw [if_pos empty]
    exact ⟨trivial, ahead⟩
  · rw [if_neg empty]
    refine ⟨⟨ready.valid fun none => empty (isEmpty_iff.mpr none), trivial⟩, ?_⟩
    rw [writes, flatMap_singleton]
    exact ready.ahead

theorem validAll_sends {event : Event} (fits : event.Fits up) : ValidAll flushed (task.sends event) := by
  cases event with
  | op now op attempt =>
    rw [sends]
    split
    · exact ⟨(ready.push now op fits).valid (append_ne_nil_of_right_ne_nil _ (cons_ne_nil _ _)), trivial⟩
    · trivial
  | statistics now stats =>
    rw [sends]
    split
    · exact (validAll_statistics now stats flushed).1
    · trivial
  | batchTimer attempt => exact (validAll_flush ready attempt).1
  | closes flush last =>
    have whole := (validAll_flush ready flush).1
    rw [sends]
    split
    · exact ⟨valid_termination _, trivial⟩
    · rename_i some
      rw [if_neg some] at whole
      exact ⟨whole.1, valid_termination _, trivial⟩

theorem ready_flushed {attempt : Attempt}
    (sound : SendsSound flushed task.destination (if task.batch.isEmpty then [] else [(task.batch, attempt)])) :
    (task.flush attempt).Ready up up := by
  have valid := validAll_flush ready attempt
  have live := sendAll_live ready.live valid.1 sound
  rw [valid.2] at live
  have empty : (task.flush attempt).batch = [] := by
    unfold flush
    split
    · rename_i none
      exact isEmpty_iff.mp none
    · rfl
  have destination : (task.flush attempt).destination =
      task.destination.sendAll (if task.batch.isEmpty then [] else [(task.batch, attempt)]) := by
    unfold flush
    split <;> rfl
  refine ⟨destination ▸ live, ?_, ?_, ?_, ?_⟩ <;> rw [empty]
  · trivial
  · rfl
  · exact fun message member => absurd member not_mem_nil
  · rfl

end

theorem FedTask.Ready.flush {fed : FedTask} {attempt : Attempt} (ready : fed.Ready)
    (sound : SendsSound fed.flushed fed.task.destination (if fed.task.batch.isEmpty then [] else [(fed.task.batch, attempt)])) :
    FedTask.Ready ⟨fed.task.flush attempt, fed.given⟩ := by
  have emptied := ready_flushed ready sound
  have none : (fed.task.flush attempt).batch = [] := by
    unfold BmpTask.flush
    split
    · rename_i empty
      exact isEmpty_iff.mp empty
    · rfl
  rw [FedTask.Ready, FedTask.flushed]
  simpa [none] using emptied

theorem ready_takes {fed : FedTask} (ready : fed.Ready) (event : Event) (fits : event.Fits (openedBy fed.given))
    (sound : SendsSound fed.flushed fed.task.destination (fed.task.sends event)) (running : (fed.task.takes event).phase = .looping) :
    FedTask.Ready ⟨fed.task.takes event, fed.given ++ event.given⟩ := by
  cases event with
  | op now op attempt =>
    let pushed : FedTask := ⟨{ fed.task with batch := fed.task.batch ++ [convertToBmp now op] }, fed.given ++ [op]⟩
    have behind : pushed.flushed = fed.flushed := by
      rw [FedTask.flushed, length_append, length_append, length_singleton, length_singleton, Nat.add_sub_add_right,
        take_append_of_le_length (Nat.sub_le _ _)]
      rfl
    have waits : pushed.Ready := by
      have ahead : openedBy (fed.given ++ [op]) = op.after (openedBy fed.given) := foldl_append
      rw [FedTask.Ready, behind, ahead]
      exact BmpTask.Ready.push ready now op fits
    rw [sends] at sound
    simp only [takes, length_append, length_singleton]
    by_cases full : fed.task.batch.length + 1 ≥ MAX_BATCH_SIZE
    · rw [if_pos full] at sound ⊢
      refine waits.flush ?_
      rw [behind]
      simpa [pushed] using sound
    · rw [if_neg full]
      exact waits
  | statistics now stats =>
    rw [sends] at sound
    rw [takes, Event.given, append_nil]
    by_cases enabled : fed.task.statisticsEnabled = true
    · rw [if_pos enabled] at sound ⊢
      obtain ⟨valid, same⟩ := validAll_statistics now stats fed.flushed
      have live := sendAll_live ready.live valid sound
      rw [same] at live
      refine ⟨?_, ready.follows, ready.plain, ready.late, ready.ahead⟩
      have written : (fed.task.sendStatistics now stats).destination =
          fed.task.destination.sendAll (stats.map fun entry => ([statisticsMessage now entry.1], entry.2)) := by
        rw [sendStatistics, BmpTcpClient.sendAll, foldl_map]
      rw [written]
      exact live
    · rw [if_neg enabled]
      exact ready
  | batchTimer attempt =>
    rw [Event.given, append_nil]
    exact ready.flush sound
  | closes flush last => cases running

theorem step_good_before (task : BmpTask) (event : Event) (good : (task.step event).destination.Good) : task.destination.Good := by
  rw [step] at good
  split at good
  · rw [takes_destination] at good
    exact sendAll_good_before _ _ good
  · exact good

theorem run_good_before (events : List Event) (task : BmpTask) (good : (events.foldl step task).destination.Good) :
    task.destination.Good := by
  induction events generalizing task with
  | nil => exact good
  | cons event rest ih => exact step_good_before task event (ih _ good)

theorem step_good_iff {fed : FedTask} (running : fed.task.phase = .looping) (ready : fed.Ready) {event : Event}
    (fits : event.Fits (openedBy fed.given)) :
    (fed.task.step event).destination.Good ↔ fed.task.destination.Good ∧ fed.Sound event := by
  rw [step, running]
  rw [takes_destination, sendAll_good_iff ready.live (validAll_sends ready fits), FedTask.Sound]
  tauto

end

section

theorem exited_run (events : List Event) {fed : FedTask} (exited : fed.task.phase = .exited) :
    events.foldl step fed.task = fed.task ∧ Permits FedTask.step FedTask.Sound fed events := by
  induction events generalizing fed with
  | nil => exact ⟨rfl, trivial⟩
  | cons event rest ih =>
    have still : fed.task.step event = fed.task := by rw [step, exited]
    have later := ih (show (fed.step event).task.phase = .exited by rw [FedTask.step, still, exited])
    rw [foldl_cons, still]
    refine ⟨?_, fun running => ?_, later.2⟩
    · simpa [FedTask.step, still] using later.1
    · rw [exited] at running
      cases running

theorem alternate_cons (fed : FedTask) {event : Event} {rest : List Event}
    (alternate : Alternate (openedBy fed.given) (taken (event :: rest))) : event.Fits (openedBy fed.given) ∧
      ((fed.task.takes event).phase = .looping → Alternate (openedBy (fed.given ++ event.given)) (taken rest)) := by
  cases event with
  | op now op attempt => exact ⟨alternate.1, fun _ => by rw [openedBy, foldl_append]; exact alternate.2⟩
  | statistics now stats | batchTimer attempt => exact ⟨trivial, fun _ => by rw [Event.given, append_nil]; exact alternate⟩
  | closes flush last => exact ⟨trivial, fun running => by cases running⟩

theorem run_good_iff (events : List Event) (fed : FedTask) (running : fed.task.phase = .looping) (ready : fed.Ready)
    (alternate : Alternate (openedBy fed.given) (taken events)) : (events.foldl step fed.task).destination.Good ↔
      fed.task.destination.Good ∧ Permits FedTask.step FedTask.Sound fed events := by
  induction events generalizing fed with
  | nil => exact (and_iff_left trivial).symm
  | cons event rest ih =>
    obtain ⟨fits, later⟩ := alternate_cons fed alternate
    have here := step_good_iff running ready fits
    have stepped : fed.task.step event = fed.task.takes event := by rw [step, running]
    rw [foldl_cons, Permits]
    by_cases sound : fed.Sound event
    · cases phase : (fed.task.takes event).phase with
      | looping =>
        have prepared := ready_takes ready event fits (sound running) phase
        have onward := ih ⟨fed.task.takes event, fed.given ++ event.given⟩ phase prepared (later phase)
        rw [FedTask.step, stepped, onward]
        rw [stepped] at here
        tauto
      | exited =>
        have whole := exited_run rest (show (fed.step event).task.phase = .exited by rw [FedTask.step, stepped, phase])
        have same : rest.foldl step (fed.task.step event) = fed.task.step event := whole.1
        rw [same]
        tauto
    · refine ⟨fun good => ?_, fun both => absurd both.2.1 sound⟩
      exact absurd (here.mp (run_good_before rest _ good)).2 sound

theorem start_ready (statisticsTimeout : Option Nat) (sysName sysDescr : String) (attempt : Attempt) :
    (start statisticsTimeout sysName sysDescr attempt).destination.Good ∧
      FedTask.Ready ⟨start statisticsTimeout sysName sysDescr attempt, []⟩ := by
  have first : ∀ count, WellOrdered ([initiationMessage sysName sysDescr].take count) := by
    intro count
    cases count with
    | zero => exact ⟨by rintro first ⟨⟩, trivial⟩
    | succ count =>
      rw [take_succ_cons, take_nil]
      exact ⟨by rintro first ⟨⟩; rfl, by rintro ip ⟨⟩, trivial⟩
  obtain ⟨connects, breaks⟩ := attempt
  refine ⟨?_, ?_, trivial, rfl, fun message member => absurd member not_mem_nil, rfl⟩
  · intro messages member
    cases connects with
    | false => cases member
    | true =>
      cases breaks with
      | none => exact mem_singleton.mp member ▸ first 1
      | some count => exact mem_singleton.mp member ▸ first count
  · intro connected
    cases connects with
    | false => cases connected
    | true =>
      cases breaks with
      | none => exact ⟨_, _, rfl, cons_ne_nil _ _, rfl⟩
      | some count => cases connected

-- Every connection tells the station of whole sessions, from the Initiation on, in exactly the
-- runs that write nothing on a second connection and report no peer before its Peer Up is flushed.
theorem stations_hear_whole_sessions (statisticsTimeout : Option Nat) (sysName sysDescr : String) (attempt : Attempt)
    (events : List Event) (alternate : Alternate [] (taken events)) :
    (∀ messages ∈ (events.foldl BmpTask.step (.start statisticsTimeout sysName sysDescr attempt)).destination.connections,
        BeginsWithInitiation messages ∧ Follows [] messages) ↔
      Permits FedTask.step FedTask.Sound ⟨.start statisticsTimeout sysName sysDescr attempt, []⟩ events := by
  obtain ⟨good, ready⟩ := start_ready statisticsTimeout sysName sysDescr attempt
  have whole := run_good_iff events ⟨_, []⟩ rfl ready alternate
  exact whole.trans ⟨fun both => both.2, fun permits => ⟨good, permits⟩⟩

def reached : Attempt := ⟨true, none⟩

def peerComes : BmpOp := .peerUp (.v4 0xC0000201) 65001 0x0A000001 (.v4 0xC0000202) 179 33000 (.new 65000 180 0x0A000002)
  (.new 65001 180 0x0A000001) true

def peerGoes : BmpOp := .peerDown (.v4 0xC0000201) 65001 0x0A000001 .remoteNoNotification true

def peerCounted : BmpPeerStats := ⟨.v4 0xC0000201, 65001, 0x0A000001, 0⟩

def session : List Event :=
  [.op (0, 0) peerComes reached, .batchTimer reached, .statistics (1, 0) [(peerCounted, reached)], .op (2, 0) peerGoes reached,
    .closes reached reached]

theorem stations_hear_session :
    Alternate [] (taken session) ∧ Permits FedTask.step FedTask.Sound ⟨.start (some 1) "r" "d" reached, []⟩ session ∧
      ∀ messages ∈ (session.foldl BmpTask.step (.start (some 1) "r" "d" reached)).destination.connections,
        BeginsWithInitiation messages ∧ Follows [] messages :=
  ⟨by decide, by decide, (stations_hear_whole_sessions (some 1) "r" "d" reached session (by decide)).mpr (by decide)⟩

def afterRefusal : BmpTask := [Event.op (0, 0) peerComes reached, .batchTimer reached].foldl BmpTask.step
  (.start none "r" "d" ⟨false, none⟩)

def afterBreak : BmpTask := [Event.op (0, 0) peerComes reached, .batchTimer ⟨true, some 0⟩, .op (1, 0) peerGoes reached,
  .batchTimer reached].foldl BmpTask.step (.start none "r" "d" reached)

def afterTimer : BmpTask := [Event.op (0, 0) peerComes reached, .statistics (0, 0) [(peerCounted, reached)]].foldl BmpTask.step
  (.start (some 1) "r" "d" reached)

theorem station_hears_parts : Alternate [] [peerComes] ∧ Alternate [] [peerComes, peerGoes] ∧
    (∃ messages ∈ afterRefusal.destination.connections, ¬ BeginsWithInitiation messages) ∧
    (∃ messages ∈ afterBreak.destination.connections, ¬ BeginsWithInitiation messages ∧ ¬ Follows [] messages) ∧
    ∃ messages ∈ afterTimer.destination.connections, BeginsWithInitiation messages ∧ ¬ Follows [] messages := by
  decide

end

end Bgpgg.Bmp
