import Metra.Server.Protocol

/-!
# The steps that take a task on

`Moves` lists the operations that change the phase of a task, with the replies that
do; every other enabled operation leaves the task in its phase
(`Enabled.moves`).  Facts about phases are proved by cases on `Moves`.
-/

namespace Metra.Server

open Interleave

/-- Where an error may make the transfer fail, be it a frame that does not open. -/
def Setup.MayFailAt (setup : Setup) (stream : LaneStream) (ph : Phase) : Prop :=
  ph.MayFail ∨ ∃ resume admission, ph = .draining resume ∧
    admitRequest stream.request = .ok admission ∧
    (stream.receipt setup.ctx admission resume).decodeError ≠ none

/-- The task gets to another phase. -/
inductive Moves (setup : Setup) (stream : LaneStream) : Task → Point → (o : Op) → o.Reply →
    Phase → Prop
  | admitted {i : Nat} {transfer : TransferSummary} :
      Moves setup stream (.handler i) (.free .idle) .readTransfer transfer
        (.admitted transfer.bytesTransferred)
  | leased {i b : Nat} {admission : Admission}
      (hrequest : admitRequest stream.request = .ok admission)
      (hsize : stream.request.fileSizeBytes = setup.size) :
      Moves setup stream (.handler i) (.free (.admitted b))
        (.tryAcquireLaneWriter stream.request.laneIndex) true (.leased b)
  | resumed {i b : Nat} {c c' : TransferCheckpoint} {lane : LaneCheckpoint}
      (hstriped : isStriped stream.request = true) (hlayout : setup.Fits stream c)
      (hround : c.roundLane stream.request.laneIndex = some (lane.offset, c'))
      (hlane : c'.lane? stream.request.laneIndex = some lane) :
      Moves setup stream (.handler i) ⟨.leased b, .out, .inside, .found c⟩
        (.persistCheckpoint c') (some ()) (.resumed lane.offset)
  | resumedStaging {i b : Nat} {len : Option Nat} (hstriped : isStriped stream.request = false)
      (hdisk : setup.discards = false) (hlen : len.getD 0 ≤ setup.size) :
      Moves setup stream (.handler i) (.free (.leased b)) .stagingLen (some len)
        (.resumed (len.getD 0))
  | opened {i resume m n b : Nat} :
      Moves setup stream (.handler i) (.free (.resumed resume)) (.markRunning m n b) true
        (.opened resume)
  | openedDiscard {i b m n b' : Nat} (hstriped : isStriped stream.request = false)
      (hdiscards : setup.discards = true) :
      Moves setup stream (.handler i) (.free (.leased b)) (.markRunning m n b') true
        (.opened (min b setup.size))
  | presizing {i resume file : Nat} (hstriped : isStriped stream.request = true)
      (hdisk : setup.discards = false) :
      Moves setup stream (.handler i) (.free (.opened resume)) .openStaging (some file)
        (.presizing resume file)
  | presized {i resume file : Nat} :
      Moves setup stream (.handler i) (.free (.presizing resume file)) (.setLen file setup.size)
        (some ()) (.presized resume)
  | acceptedPresized {i resume : Nat} {ack : QuicTransferOpenAck} :
      Moves setup stream (.handler i) (.free (.presized resume)) (.sendOpenAck ack) (some ())
        (.accepted resume)
  | accepted {i resume : Nat} {ack : QuicTransferOpenAck}
      (hplain : isStriped stream.request = false ∨ setup.discards = true) :
      Moves setup stream (.handler i) (.free (.opened resume)) (.sendOpenAck ack) (some ())
        (.accepted resume)
  | receiving {i resume file : Nat} (hdisk : setup.discards = false) :
      Moves setup stream (.handler i) (.free (.accepted resume)) .openStaging (some file)
        (.receiving resume file)
  | draining {i : Nat} {args : WriterArgs} (hargs : setup.IsWriterArgs stream args) :
      Moves setup stream (.handler i) (.free (.receiving args.resumeOffset args.file))
        (.spawnWriter args) () (.draining args.resumeOffset)
  | received {i resume written : Nat} :
      Moves setup stream (.handler i) (.free (.draining resume)) .joinWriter (.ok written)
        (.received resume written)
  | broken {i resume : Nat} {err : String} :
      Moves setup stream (.handler i) (.free (.draining resume)) .joinWriter (.error err) .broken
  | alreadyDone {i b : Nat} {ph : Phase} (hph : setup.Finalizes stream ph) :
      Moves setup stream (.handler i) (.guarded ph) .checkFinalized (true, b)
        (.reported .completed)
  | deciding {i b : Nat} {ph : Phase} (hph : setup.Finalizes stream ph) :
      Moves setup stream (.handler i) (.guarded ph) .checkFinalized (false, b) .deciding
  | incomplete {i : Nat} {c : TransferCheckpoint} (hc : c.allLanesComplete = false) :
      Moves setup stream (.handler i) ⟨.deciding, .inside, .inside, .nothing⟩ .readCheckpoint
        (some c) .incomplete
  | ready {i : Nat} {c : TransferCheckpoint} (hc : c.allLanesComplete = true) :
      Moves setup stream (.handler i) ⟨.deciding, .inside, .inside, .nothing⟩ .readCheckpoint
        (some c) .ready
  | readySingle {i fileSize : Nat} {ph : Phase} (hstriped : isStriped stream.request = false)
      (hph : setup.Finalizes stream ph) :
      Moves setup stream (.handler i) (.free ph) (.recordReceived setup.size) fileSize .ready
  | checking {i : Nat} {f : Stage} {reply : Bool × Bool × Nat} (hdisk : setup.discards = false) :
      Moves setup stream (.handler i) ⟨.ready, f, .out, .nothing⟩ .readPolicy reply
        (.checking setup.guards)
  | passed {i g : Nat} {f : Stage} :
      Moves setup stream (.handler i) ⟨.checking (g + 1), f, .out, .nothing⟩ .finalExists
        (some false) (.checking g)
  | refused {i g : Nat} {f : Stage} :
      Moves setup stream (.handler i) ⟨.checking (g + 1), f, .out, .nothing⟩ .finalExists
        (some true) .refused
  | vacant {i : Nat} {f : Stage} :
      Moves setup stream (.handler i) ⟨.checking 0, f, .out, .nothing⟩ .finalExists
        (some false) .vacant
  | clearing {i : Nat} {f : Stage} :
      Moves setup stream (.handler i) ⟨.checking 0, f, .out, .nothing⟩ .finalExists
        (some true) .clearing
  | cleared {i : Nat} {f : Stage} :
      Moves setup stream (.handler i) ⟨.clearing, f, .out, .nothing⟩ .removeFinal (some ())
        .vacant
  | placed {i : Nat} {f : Stage} :
      Moves setup stream (.handler i) ⟨.vacant, f, .out, .nothing⟩ .renameStaging (some ())
        .placed
  | setIncomplete {i b : Nat} :
      Moves setup stream (.handler i) (.guarded .incomplete) (.setStatus .running b) ()
        (.settling .running)
  | setDiscarded {i b : Nat} {f : Stage} (hdiscards : setup.discards = true) :
      Moves setup stream (.handler i) ⟨.ready, f, .out, .nothing⟩ (.setStatus .completed b) ()
        (.settling .completed)
  | setPlaced {i b : Nat} {f : Stage} :
      Moves setup stream (.handler i) ⟨.placed, f, .out, .nothing⟩ (.setStatus .completed b) ()
        (.settling .completed)
  | setRefused {i b : Nat} {f : Stage} :
      Moves setup stream (.handler i) ⟨.refused, f, .out, .nothing⟩ (.setStatus .failed b) ()
        (.settling .failed)
  | setFailed {i b : Nat} :
      Moves setup stream (.handler i) (.free .failing) (.setStatus .failed b) ()
        (.settling .failed)
  | reported {i : Nat} {st : TransferStatus} {r : Option Unit} (hterminal : st.terminal = true) :
      Moves setup stream (.handler i) (.guarded (.settling st)) .removeCheckpoint r (.reported st)
  | abandoned {i : Nat} {ph : Phase} (hph : setup.faults ∧ ph.MayFail) :
      Moves setup stream (.handler i) (.guarded ph) (.unlock .finalize) () .broken
  | sentSettled {i : Nat} {st : TransferStatus} {ack : QuicTransferCompleteAck}
      (hack : ack.status = st) :
      Moves setup stream (.handler i) (.free (.settling st)) (.sendCompleteAck ack) (some ())
        .over
  | sentReported {i : Nat} {st : TransferStatus} {ack : QuicTransferCompleteAck}
      (hack : ack.status = st) :
      Moves setup stream (.handler i) (.free (.reported st)) (.sendCompleteAck ack) (some ())
        .over
  | notRunning {i : Nat} {ph : Phase} (hfaults : setup.faults)
      (hph : setup.MayFailAt stream ph) :
      Moves setup stream (.handler i) (.free ph) .checkRunning none .over
  | failing {i b : Nat} {ph : Phase} (hfaults : setup.faults)
      (hph : setup.MayFailAt stream ph) :
      Moves setup stream (.handler i) (.free ph) .checkRunning (some b) .failing
  | released {i : Nat} {ph : Phase} (hph : ph = .over ∨ setup.faults ∧ ph.MayLeave) :
      Moves setup stream (.handler i) (.free ph) (.releaseLaneWriter stream.request.laneIndex) ()
        .released
  | writing {i : Nat} {args : WriterArgs} :
      Moves setup stream (.writer i) (.free .unborn) .awaitWriter args
        (.writing args 0 args.chunks args.resumeOffset false)
  | wrote {i w d : Nat} {args : WriterArgs} {chunk : List UInt8} {rest : List (List UInt8)}
      {synced : Bool} :
      Moves setup stream (.writer i) (.free (.writing args w (chunk :: rest) d synced))
        (.writeAll args.file (args.resumeOffset + w) chunk) (some ())
        (.writing args (w + chunk.length) rest d false)
  | synced {i w d : Nat} {args : WriterArgs} {rest : List (List UInt8)} {synced : Bool} :
      Moves setup stream (.writer i) (.free (.writing args w rest d synced)) (.syncData args.file)
        (some ()) (.writing args w rest d true)
  | recorded {i w d b : Nat} {args : WriterArgs} {rest : List (List UInt8)}
      (hdurable : args.striped = true → d = args.resumeOffset + w) :
      Moves setup stream (.writer i) (.free (.writing args w rest d true)) (.recordProgress b) ()
        (.writing args w rest (args.resumeOffset + w) true)
  | stored {i w d : Nat} {args : WriterArgs} {rest : List (List UInt8)}
      {c c' : TransferCheckpoint} (hstriped : args.striped = true)
      (hadvance : c.advanceLane args.laneIndex (args.resumeOffset + w) = some c') :
      Moves setup stream (.writer i) ⟨.writing args w rest d true, .out, .inside, .found c⟩
        (.persistCheckpoint c') (some ()) (.writing args w rest (args.resumeOffset + w) true)
  | flushed {i w : Nat} {args : WriterArgs} {synced : Bool} :
      Moves setup stream (.writer i) (.free (.writing args w [] (args.resumeOffset + w) synced))
        (.flush args.file) (some ()) (.flushed args w)
  | done {i w : Nat} {args : WriterArgs} :
      Moves setup stream (.writer i) (.free (.flushed args w)) (.finishWriter (.ok w)) () .done
  | gaveUp {i w d : Nat} {args : WriterArgs} {rest : List (List UInt8)} {synced : Bool}
      {err : String} (hfaults : setup.faults) :
      Moves setup stream (.writer i) (.free (.writing args w rest d synced))
        (.finishWriter (.error err)) () .done

variable {setup : Setup} {stream : LaneStream} {t : Task} {pt : Point} {o : Op}

/-- **An enabled operation takes the task on, or leaves it in its phase.** -/
theorem Enabled.moves (h : Enabled setup t pt o) (hstream : setup.streams t.stream = some stream)
    (r : o.Reply) :
    (advance setup stream pt o r).phase = pt.phase ∨
      Moves setup stream t pt o r (advance setup stream pt o r).phase := by
  have hsame : ∀ {i : Nat} {stream' : LaneStream}, t = .handler i →
      setup.streams i = some stream' → stream' = stream := by
    rintro i stream' rfl h'
    exact Option.some.inj (h'.symm.trans hstream)
  cases h with
  | readTransfer => exact .inr .admitted
  | acquire h' hrequest hsize =>
    obtain rfl := hsame rfl h'
    cases r
    · exact .inl rfl
    · exact .inr (.leased hrequest hsize)
  | persistRounded h' hstriped hlayout hround =>
    obtain rfl := hsame rfl h'
    obtain ⟨lane, hlane, rfl⟩ := TransferCheckpoint.lane?_of_roundLane hround
    cases r with
    | none => exact .inl rfl
    | some _ =>
      simp only [advance, Point.storedCheckpoint, hlane]
      exact .inr (.resumed hstriped hlayout hround hlane)
  | stagingLen h' hstriped hdisk =>
    obtain rfl := hsame rfl h'
    cases r with
    | none => exact .inl rfl
    | some len =>
      simp only [advance]
      split
      · rename_i hlen
        exact .inr (.resumedStaging hstriped hdisk hlen)
      · exact .inl rfl
  | markRunning =>
    cases r
    · exact .inl rfl
    · exact .inr .opened
  | markRunningDiscard h' hstriped hdiscards =>
    obtain rfl := hsame rfl h'
    cases r
    · exact .inl rfl
    · exact .inr (.openedDiscard hstriped hdiscards)
  | presizeOpen h' hstriped hdisk =>
    obtain rfl := hsame rfl h'
    cases r
    · exact .inl rfl
    · exact .inr (.presizing hstriped hdisk)
  | presize =>
    cases r
    · exact .inl rfl
    · exact .inr .presized
  | acceptPresized =>
    cases r
    · exact .inl rfl
    · exact .inr .acceptedPresized
  | accept h' hplain =>
    obtain rfl := hsame rfl h'
    cases r
    · exact .inl rfl
    · exact .inr (.accepted hplain)
  | openStaging hdisk =>
    cases r
    · exact .inl rfl
    · exact .inr (.receiving hdisk)
  | spawn h' hargs hresume =>
    obtain rfl := hsame rfl h'
    subst hresume
    exact .inr (.draining hargs)
  | join =>
    cases r
    · exact .inr .broken
    · exact .inr .received
  | checkFinalized h' hph =>
    obtain rfl := hsame rfl h'
    obtain ⟨_ | _, b⟩ := r
    · exact .inr (.deciding hph)
    · exact .inr (.alreadyDone hph)
  | loadDeciding =>
    cases r with
    | none => exact .inl rfl
    | some c =>
      show (decided c) = _ ∨ Moves setup stream _ _ _ _ (decided c)
      unfold decided
      split
      · rename_i hc
        exact .inr (.ready hc)
      · rename_i hc
        exact .inr (.incomplete (by simpa using hc))
  | recordReceived h' hstriped hph =>
    obtain rfl := hsame rfl h'
    exact .inr (.readySingle hstriped hph)
  | readPolicy hdisk => exact .inr (.checking hdisk)
  | finalExists =>
    rename_i g _
    rcases r with _ | _ | _
    · exact .inl rfl
    · cases g
      · exact .inr .vacant
      · exact .inr .passed
    · cases g
      · exact .inr .clearing
      · exact .inr .refused
  | removeFinal =>
    cases r
    · exact .inl rfl
    · exact .inr .cleared
  | rename =>
    cases r
    · exact .inl rfl
    · exact .inr .placed
  | setIncomplete => exact .inr .setIncomplete
  | completeDiscarded hdiscards => exact .inr (.setDiscarded hdiscards)
  | complete => exact .inr .setPlaced
  | refuse => exact .inr .setRefused
  | fail => exact .inr .setFailed
  | removeCheckpoint hterminal => exact .inr (.reported hterminal)
  | sendSettled hack =>
    cases r
    · exact .inl rfl
    · exact .inr (.sentSettled hack)
  | sendReported hack =>
    cases r
    · exact .inl rfl
    · exact .inr (.sentReported hack)
  | checkRunning hfaults hph =>
    cases r
    · exact .inr (.notRunning hfaults (.inl hph))
    · exact .inr (.failing hfaults (.inl hph))
  | checkRunningDraining hfaults h' hrequest hdecode =>
    obtain rfl := hsame rfl h'
    cases r
    · exact .inr (.notRunning hfaults (.inr ⟨_, _, rfl, hrequest, hdecode⟩))
    · exact .inr (.failing hfaults (.inr ⟨_, _, rfl, hrequest, hdecode⟩))
  | release h' =>
    obtain rfl := hsame rfl h'
    exact .inr (.released (.inl rfl))
  | leave hfaults h' hph =>
    obtain rfl := hsame rfl h'
    exact .inr (.released (.inr ⟨hfaults, hph⟩))
  | @unlockFinalize _ ph hph =>
    cases ph with
    | settling st => exact .inl rfl
    | reported st => exact .inl rfl
    | _ => exact .inr (.abandoned hph)
  | awaitWriter => exact .inr .writing
  | write =>
    cases r
    · exact .inl rfl
    · exact .inr .wrote
  | sync =>
    cases r
    · exact .inl rfl
    · exact .inr .synced
  | recordWriting hdurable => exact .inr (.recorded hdurable)
  | persistWriting hstriped hadvance =>
    cases r
    · exact .inl rfl
    · exact .inr (.stored hstriped hadvance)
  | flush =>
    cases r
    · exact .inl rfl
    · exact .inr .flushed
  | finishOk => exact .inr .done
  | finishError hfaults => exact .inr (.gaveUp hfaults)
  | _ =>
    first
    | exact .inl rfl
    | (cases r <;> exact .inl rfl)

end Metra.Server
