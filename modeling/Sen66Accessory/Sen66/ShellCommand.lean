import Sen66Accessory.Bus.Manners
import Sen66Accessory.MeasurementService.Service
import Sen66Accessory.Sen66.Serial
import Sen66Accessory.Sen66.Shell

open Decimal MeasurementService

namespace Sen66

/-- The error code of a command that has nothing to print yet, `-EAGAIN`. -/
def eagain : Int := -11

def kDataReadyPollCount : Nat := 20
def kDataReadyPollMs : Nat := 100

/-- A line a command prints, by its level. -/
inductive ShellMessage where
  | print (text : List Char)
  | warn (text : List Char)
  | error (text : List Char)
  deriving DecidableEq

/-- What a command prints and returns. -/
structure ShellResult where
  output : List ShellMessage
  code : Int
  deriving DecidableEq

def ShellLine.message (line : ShellLine) : ShellMessage := .print line.text

/-- The characters of a C string. -/
def charsOf (text : List UInt8) : List Char := text.map fun c => Char.ofNat c.toNat

def cmdSerial (serial : CharBuffer) : Transfer ShellResult := do
  let (err, serial) ← readSerialNumber serial
  if err ≠ 0 then
    return ⟨[.error ("SEN66: serial read failed (".toList ++ signed 0 err ++ [')'])], err⟩
  return ⟨[.print ("SEN66 serial: ".toList ++ charsOf serial.cString)], 0⟩

/-- The turns left of the loop that polls for data. -/
def awaitReady : Nat → Transfer Bool
  | 0 => return false
  | turns + 1 => do
    let ready ← isDataReady
    if !ready then
      msleep kDataReadyPollMs
      awaitReady turns
    else
      return true

/-- The code of the start is ignored: a running measurement refuses it. -/
def cmdRead (m : Measurement) : Transfer ShellResult := do
  let _ ← startMeasurement
  let ready ← awaitReady kDataReadyPollCount
  if !ready then
    return ⟨[.warn "SEN66: no data ready (still warming up?)".toList], eagain⟩
  let (err, m) ← readMeasurement m
  if err ≠ 0 then
    return ⟨[.error ("SEN66: read failed (".toList ++ signed 0 err ++ [')'])], err⟩
  return ⟨.print "SEN66 measurement:".toList :: (printMeasurement m).map ShellLine.message, 0⟩

/-- The command that reads the shared snapshot in place of the bus. -/
def cmdLatest (shared : Snapshot) : ShellResult :=
  let (ok, snapshot) := getLatest shared
  if !ok then
    ⟨[.warn "SEN66: no measurement yet (still starting up?)".toList], eagain⟩
  else
    ⟨.print ("SEN66 latest (age ".toList ++ signed 0 snapshot.ageMs ++ " ms):".toList) ::
      (printMeasurement snapshot.measurement).map ShellLine.message, 0⟩

section

variable {σ : Type} (bus : Bus σ) (s : σ)

/-- The sensor is ready when it accepts the question and its answer has the flag
    set and a matching CRC. -/
theorem isDataReady_run :
    isDataReady.run bus s =
      let sent := bus.write s Command.getDataReady.bytes
      if sent.1 ≠ 0 then (false, sent.2)
      else
        let answer := bus.read sent.2 kDataReadyBytes
        (decide (answer.1.1 = 0) && checkWordsCrc 1 answer.1.2 && answer.1.2[1] == 0x01,
          answer.2) := by
  simp only [isDataReady, Transfer.run_locked, Transfer.run_bind, Transfer.run_ite,
    Transfer.run_pure]
  dsimp +instances only [sendCommand_run, msleep_run, readBytes_run]
  split
  · rfl
  split
  · rename_i hfailed
    rw [decide_eq_false hfailed]
    rfl
  · rename_i hread
    rw [decide_eq_true (not_not.mp hread)]
    split <;> simp_all

@[simp] theorem sendCommand_waited (cmd : Command) : (sendCommand cmd).waited bus s = 0 := rfl

@[simp] theorem readBytes_waited (length : Nat) : (readBytes length).waited bus s = 0 := rfl

@[simp] theorem msleep_waited (ms : Nat) : (msleep ms).waited bus s = ms := rfl

theorem startMeasurement_waited_le : startMeasurement.waited bus s ≤ kExecStartMs := by
  simp only [startMeasurement, Transfer.waited_locked, Transfer.waited_bind, Transfer.waited_ite,
    Transfer.waited_pure, sendCommand_waited, msleep_waited]
  split <;> omega

theorem isDataReady_waited_le : isDataReady.waited bus s ≤ kExecReadMs := by
  simp only [isDataReady, Transfer.waited_locked, Transfer.waited_bind, Transfer.waited_ite,
    Transfer.waited_pure, sendCommand_waited, msleep_waited, readBytes_waited]
  repeat' split
  all_goals omega

theorem readMeasurement_waited_le (out : Measurement) :
    (readMeasurement out).waited bus s ≤ kExecReadMs := by
  simp only [readMeasurement, Transfer.waited_locked, Transfer.waited_bind, Transfer.waited_ite,
    Transfer.waited_pure, sendCommand_waited, msleep_waited, readBytes_waited]
  repeat' split
  all_goals omega

/-- The bus once the sensor has been asked for data so many times. -/
def polled : Nat → σ → σ
  | 0, s => s
  | polls + 1, s => polled polls (isDataReady.run bus s).2

/-- Whether the sensor is ready the next time. -/
def readyAt (polls : Nat) : Bool := (isDataReady.run bus (polled bus polls s)).1

theorem awaitReady_succ_run (turns : Nat) :
    (awaitReady (turns + 1)).run bus s =
      if readyAt bus s 0 = true then (true, (isDataReady.run bus s).2)
      else (awaitReady turns).run bus (isDataReady.run bus s).2 := by
  have hready : readyAt bus s 0 = (isDataReady.run bus s).1 := rfl
  rw [awaitReady, Transfer.run_bind, Transfer.run_ite, hready]
  cases (isDataReady.run bus s).1 <;> rfl

/-- The loop ends with the first answer that the sensor is ready. -/
theorem awaitReady_of_ready {turns polls : Nat} (hpolls : polls < turns)
    (hready : readyAt bus s polls = true) (hfirst : ∀ k < polls, readyAt bus s k = false) :
    (awaitReady turns).run bus s = (true, polled bus (polls + 1) s) := by
  induction turns generalizing s polls with
  | zero => exact absurd hpolls (Nat.not_lt_zero _)
  | succ turns ih =>
    rw [awaitReady_succ_run]
    cases polls with
    | zero => exact if_pos hready
    | succ polls =>
      rw [if_neg (Bool.eq_false_iff.mp (hfirst 0 (Nat.succ_pos polls)))]
      exact ih _ (Nat.lt_of_succ_lt_succ hpolls) hready fun k hk =>
        hfirst (k + 1) (Nat.succ_lt_succ hk)

/-- Without one it takes all its turns. -/
theorem awaitReady_of_not_ready {turns : Nat} (hnever : ∀ k < turns, readyAt bus s k = false) :
    (awaitReady turns).run bus s = (false, polled bus turns s) := by
  induction turns generalizing s with
  | zero => rfl
  | succ turns ih =>
    rw [awaitReady_succ_run, if_neg (Bool.eq_false_iff.mp (hnever 0 (Nat.succ_pos turns)))]
    exact ih _ fun k hk => hnever (k + 1) (Nat.succ_lt_succ hk)

/-- Every turn but a last successful one waits for the answer and then for the
    next turn. -/
theorem awaitReady_waited_le (turns : Nat) :
    (awaitReady turns).waited bus s + (if ((awaitReady turns).run bus s).1 = true then
      kDataReadyPollMs else 0) ≤ turns * (kExecReadMs + kDataReadyPollMs) := by
  induction turns generalizing s with
  | zero => rfl
  | succ turns ih =>
    have hasked := isDataReady_waited_le bus s
    have hrest := ih (isDataReady.run bus s).2
    rw [awaitReady_succ_run, Nat.succ_mul, awaitReady, Transfer.waited_bind, Transfer.waited_ite]
    change _ + (if (!readyAt bus s 0) = true then _ else _) + _ ≤ _
    cases readyAt bus s 0 with
    | true =>
      simp only [Bool.not_true, Bool.false_eq_true, if_false, if_true, Transfer.waited_pure]
      omega
    | false =>
      simp only [Bool.not_false, Bool.false_eq_true, if_true, if_false, Transfer.waited_bind,
        msleep_waited, msleep_run]
      omega

end

/-- The sensor accepts a command and answers it with a response whose every CRC
    matches. -/
structure Answered {σ : Type} (bus : Bus σ) (s : σ) (cmd : Command) (words : Nat)
    (raw : Vector UInt8 (words * kWordSize)) : Prop where
  accepted : (bus.write s cmd.bytes).1 = 0
  answered : (bus.read (bus.write s cmd.bytes).2 (words * kWordSize)).1 = (0, raw)
  crc : checkWordsCrc words raw = true

section

variable {σ : Type} (bus : Bus σ) (s : σ)

/-- A command is answered, or one of its two transactions fails, or a CRC does. -/
theorem answered_cases (cmd : Command) (words : Nat) :
    (∃ raw, Answered bus s cmd words raw) ∨
    (∀ raw, ¬ Answered bus s cmd words raw) ∧
      ((bus.write s cmd.bytes).1 ≠ 0 ∨
        (bus.write s cmd.bytes).1 = 0 ∧
          ((bus.read (bus.write s cmd.bytes).2 (words * kWordSize)).1.1 ≠ 0 ∨
            (bus.read (bus.write s cmd.bytes).2 (words * kWordSize)).1.1 = 0 ∧
              checkWordsCrc words (bus.read (bus.write s cmd.bytes).2 (words * kWordSize)).1.2 =
                false)) := by
  by_cases hwritten : (bus.write s cmd.bytes).1 = 0
  swap
  · exact Or.inr ⟨fun raw hanswered => hwritten hanswered.accepted, Or.inl hwritten⟩
  generalize hanswer : (bus.read (bus.write s cmd.bytes).2 (words * kWordSize)).1 = answer
  obtain ⟨err, raw⟩ := answer
  have hsame {raw' : Vector UInt8 (words * kWordSize)} (hanswered : Answered bus s cmd words raw') :
      err = 0 ∧ raw' = raw := by
    cases hanswer.symm.trans hanswered.answered
    exact ⟨rfl, rfl⟩
  by_cases hread : err = 0
  swap
  · exact Or.inr ⟨fun raw' hanswered => hread (hsame hanswered).1, Or.inr ⟨hwritten, Or.inl hread⟩⟩
  subst hread
  cases hcrc : checkWordsCrc words raw with
  | true => exact Or.inl ⟨raw, hwritten, hanswer, hcrc⟩
  | false =>
    refine Or.inr ⟨fun raw' hanswered => ?_, Or.inr ⟨hwritten, Or.inr ⟨rfl, rfl⟩⟩⟩
    have hmatches := hanswered.crc
    rw [(hsame hanswered).2, hcrc] at hmatches
    cases hmatches

/-- On the wire: the sensor answers the question for data with the flag set. -/
def ReportsReady : Prop :=
  ∃ raw : Vector UInt8 kDataReadyBytes,
    Answered bus s .getDataReady 1 raw ∧ raw[1]? = some 0x01

theorem isDataReady_iff : (isDataReady.run bus s).1 = true ↔ ReportsReady bus s := by
  rw [isDataReady_run]
  constructor
  · intro hready
    dsimp only at hready
    split at hready
    · cases hready
    · rename_i haccepted
      simp only [Bool.and_eq_true, decide_eq_true_eq, beq_iff_eq] at hready
      obtain ⟨⟨hread, hcrc⟩, hflag⟩ := hready
      exact ⟨_, ⟨not_not.mp haccepted, Prod.ext hread rfl, hcrc⟩, congrArg some hflag⟩
  · rintro ⟨raw, ⟨haccepted, hanswered, hcrc⟩, hflag⟩
    have hanswered : (bus.read (bus.write s Command.getDataReady.bytes).2 kDataReadyBytes).1 =
        (0, raw) := hanswered
    have hflag : raw[1] = 0x01 := Option.some_inj.mp hflag
    simp [haccepted, hanswered, hcrc, hflag]

theorem readyAt_iff (polls : Nat) :
    readyAt bus s polls = true ↔ ReportsReady bus (polled bus polls s) :=
  isDataReady_iff bus (polled bus polls s)

theorem readyAt_eq_false_iff (polls : Nat) :
    readyAt bus s polls = false ↔ ¬ ReportsReady bus (polled bus polls s) := by
  rw [← readyAt_iff, Bool.not_eq_true]

/-- A read succeeds with the frame of the sensor's answer, or fails for want of
    one. -/
theorem readMeasurement_cases (out : Measurement) :
    (∃ raw, Answered bus s .readMeasuredValues kMeasurementWords raw ∧
      ((readMeasurement out).run bus s).1 = (0, decodeMeasurement raw)) ∨
    (∀ raw, ¬ Answered bus s .readMeasuredValues kMeasurementWords raw) ∧
      ((readMeasurement out).run bus s).1.1 ≠ 0 := by
  rw [readMeasurement_run]
  obtain ⟨raw, hanswered⟩ | ⟨hnone, hfailed⟩ :=
    answered_cases bus s .readMeasuredValues kMeasurementWords
  · refine Or.inl ⟨raw, hanswered, ?_⟩
    simp only [hanswered.accepted, hanswered.answered, hanswered.crc, if_true, ne_eq,
      not_true_eq_false, if_false]
  · refine Or.inr ⟨hnone, ?_⟩
    rcases hfailed with hwrite | ⟨hwrite, hread | ⟨hread, hcrc⟩⟩
    · simp [hwrite]
    · simp [hwrite, hread]
    · simp [hwrite, hread, hcrc, show eio ≠ 0 by decide]

/-- The serial number is that of the sensor's answer, whatever was in the buffer,
    or reading it fails for want of one. -/
theorem readSerialNumber_cases (out : CharBuffer) :
    (∃ raw, Answered bus s .getSerialNumber kSerialWords raw ∧
      ((readSerialNumber out).run bus s).1.1 = 0 ∧
      ((readSerialNumber out).run bus s).1.2.chars.toList = serialPayload raw ++ [0]) ∨
    (∀ raw, ¬ Answered bus s .getSerialNumber kSerialWords raw) ∧
      ((readSerialNumber out).run bus s).1.1 ≠ 0 := by
  rw [readSerialNumber_run]
  obtain ⟨raw, hanswered⟩ | ⟨hnone, hfailed⟩ :=
    answered_cases bus s .getSerialNumber kSerialWords
  · refine Or.inl ⟨raw, hanswered, ?_⟩
    have hlength : (serialPayload raw ++ [0]).length = kSerialChars := by
      rw [List.length_append, length_serialPayload]
      rfl
    have hrest : out.chars.toList.drop (0 + (serialPayload raw ++ [0]).length) = [] := by
      apply List.drop_of_length_le
      rw [Vector.length_toList, hlength, Nat.zero_add]
    simp only [hanswered.accepted, hanswered.answered, hanswered.crc, if_true, ne_eq,
      not_true_eq_false, if_false, true_and]
    rw [CharBuffer.chars_storeFrom _ _ _ (by rw [hlength, Nat.zero_add]), hrest, List.take_zero,
      List.nil_append, List.append_nil]
  · refine Or.inr ⟨hnone, ?_⟩
    rcases hfailed with hwrite | ⟨hwrite, hread | ⟨hread, hcrc⟩⟩
    · simp [hwrite]
    · simp [hwrite, hread]
    · simp [hwrite, hread, hcrc, show eio ≠ 0 by decide]

end

/-- A frame that one `sen66 read` fetches: after so many polls without data the
    sensor is ready and answers. -/
structure Fetches {σ : Type} (bus : Bus σ) (s : σ) (polls : Nat)
    (raw : Vector UInt8 kMeasurementBytes) : Prop where
  polls_lt : polls < kDataReadyPollCount
  waiting : ∀ k < polls, ¬ ReportsReady bus (polled bus k s)
  ready : ReportsReady bus (polled bus polls s)
  answers : Answered bus (polled bus (polls + 1) s) .readMeasuredValues kMeasurementWords raw

section

variable {σ : Type} (bus : Bus σ) (s : σ) (m : Measurement)

theorem cmdRead_run :
    (cmdRead m).run bus s =
      let started := (startMeasurement.run bus s).2
      let awaited := (awaitReady kDataReadyPollCount).run bus started
      if awaited.1 = false then
        (⟨[.warn "SEN66: no data ready (still warming up?)".toList], eagain⟩, awaited.2)
      else
        let fetched := (readMeasurement m).run bus awaited.2
        if fetched.1.1 ≠ 0 then
          (⟨[.error ("SEN66: read failed (".toList ++ signed 0 fetched.1.1 ++ [')'])],
            fetched.1.1⟩, fetched.2)
        else
          (⟨.print "SEN66 measurement:".toList ::
            (printMeasurement fetched.1.2).map ShellLine.message, 0⟩, fetched.2) := by
  rw [cmdRead, Transfer.run_bind, Transfer.run_bind, Transfer.run_ite]
  simp only [Bool.not_eq_true', Transfer.run_bind, Transfer.run_ite, Transfer.run_pure]

/-- A command that finds the sensor ready fetches a frame, or fails. -/
theorem cmdRead_of_ready {polls : Nat} (hpolls : polls < kDataReadyPollCount)
    (hready : readyAt bus (startMeasurement.run bus s).2 polls = true)
    (hfirst : ∀ k < polls, readyAt bus (startMeasurement.run bus s).2 k = false) :
    (∃ raw, Fetches bus (startMeasurement.run bus s).2 polls raw ∧
      ((cmdRead m).run bus s).1 = ⟨.print "SEN66 measurement:".toList ::
        (printMeasurement (decodeMeasurement raw)).map ShellLine.message, 0⟩) ∨
    (∀ raw, ¬ Fetches bus (startMeasurement.run bus s).2 polls raw) ∧
      ∃ err text, err ≠ 0 ∧ ((cmdRead m).run bus s).1 = ⟨[.error text], err⟩ := by
  rw [cmdRead_run]
  dsimp only
  rw [awaitReady_of_ready _ _ hpolls hready hfirst]
  dsimp only
  rw [if_neg (show ¬ true = false by decide)]
  obtain ⟨raw, hanswers, hread⟩ | ⟨hnone, hread⟩ := readMeasurement_cases bus
    (polled bus (polls + 1) (startMeasurement.run bus s).2) m
  · have hwaiting (k : Nat) (hk : k < polls) := (readyAt_eq_false_iff bus _ k).mp (hfirst k hk)
    refine Or.inl ⟨raw, ⟨hpolls, hwaiting, (readyAt_iff bus _ polls).mp hready, hanswers⟩, ?_⟩
    rw [hread, if_neg (not_not_intro rfl)]
  · rw [if_pos hread]
    exact Or.inr ⟨fun raw hfetches => hnone raw hfetches.answers, _, _, hread, rfl⟩

/-- The whole of `sen66 read`, over any bus and any answers. It prints a
    measurement and succeeds exactly when it fetches a frame, and then prints
    that frame; in every other case it prints one line that is not a measurement
    and returns an error. A sensor that never gets ready is never sent the read
    command. The command is over after at most 2450 ms of waiting. -/
theorem cmdRead_law :
    (∀ polls raw, Fetches bus (startMeasurement.run bus s).2 polls raw →
      ((cmdRead m).run bus s).1 = ⟨.print "SEN66 measurement:".toList ::
        (printMeasurement (decodeMeasurement raw)).map ShellLine.message, 0⟩) ∧
    ((∀ polls raw, ¬ Fetches bus (startMeasurement.run bus s).2 polls raw) →
      ((cmdRead m).run bus s).1.code ≠ 0 ∧ ∃ message,
        ((cmdRead m).run bus s).1.output = [message] ∧ ∀ text, message ≠ .print text) ∧
    ((∀ k < kDataReadyPollCount,
        ¬ ReportsReady bus (polled bus k (startMeasurement.run bus s).2)) →
      ((cmdRead m).run bus s).2 =
        polled bus kDataReadyPollCount (startMeasurement.run bus s).2) ∧
    (cmdRead m).waited bus s ≤
      kExecStartMs + kDataReadyPollCount * (kExecReadMs + kDataReadyPollMs) := by
  have hnever (hwaiting : ∀ k < kDataReadyPollCount,
      readyAt bus (startMeasurement.run bus s).2 k = false) :
      (cmdRead m).run bus s = (⟨[.warn "SEN66: no data ready (still warming up?)".toList], eagain⟩,
        polled bus kDataReadyPollCount (startMeasurement.run bus s).2) := by
    rw [cmdRead_run]
    dsimp only
    rw [awaitReady_of_not_ready _ _ hwaiting, if_pos rfl]
  refine ⟨?_, ?_, fun hwaiting => ?_, ?_⟩
  · intro polls raw hfetches
    obtain ⟨raw', hfetches', hresult⟩ | ⟨hnone, _⟩ :=
      cmdRead_of_ready bus s m hfetches.polls_lt ((readyAt_iff bus _ polls).mpr hfetches.ready)
        fun k hk => (readyAt_eq_false_iff bus _ k).mpr (hfetches.waiting k hk)
    · have hsame := hfetches.answers.answered.symm.trans hfetches'.answers.answered
      rw [hresult, show raw = raw' from congrArg Prod.snd hsame]
    · exact absurd hfetches (hnone raw)
  · intro hnone
    by_cases hwaiting : ∀ k < kDataReadyPollCount,
        readyAt bus (startMeasurement.run bus s).2 k = false
    · rw [hnever hwaiting]
      exact ⟨show eagain ≠ 0 by decide, _, rfl, nofun⟩
    · have hexists : ∃ k, k < kDataReadyPollCount ∧
          readyAt bus (startMeasurement.run bus s).2 k = true := by
        simpa using hwaiting
      obtain ⟨hpolls, hready⟩ := Nat.find_spec hexists
      have hfirst : ∀ k < Nat.find hexists,
          readyAt bus (startMeasurement.run bus s).2 k = false := by
        intro k hk
        by_contra hearlier
        exact Nat.find_min hexists hk ⟨hk.trans hpolls, by simpa using hearlier⟩
      obtain ⟨raw, hfetches, _⟩ | ⟨_, err, text, herr, hresult⟩ :=
        cmdRead_of_ready bus s m hpolls hready hfirst
      · exact absurd hfetches (hnone _ raw)
      · rw [hresult]
        exact ⟨herr, _, rfl, nofun⟩
  · rw [hnever fun k hk => (readyAt_eq_false_iff bus _ k).mpr (hwaiting k hk)]
  · have hstart := startMeasurement_waited_le bus s
    have hawait := awaitReady_waited_le bus (startMeasurement.run bus s).2 kDataReadyPollCount
    rw [cmdRead, Transfer.waited_bind, Transfer.waited_bind, Transfer.waited_ite]
    generalize (awaitReady kDataReadyPollCount).run bus (startMeasurement.run bus s).2 = awaited
      at hawait ⊢
    cases hready : awaited.1 with
    | false =>
      rw [hready, if_neg Bool.false_ne_true] at hawait
      change _ + (_ + 0) ≤ _
      omega
    | true =>
      have hread := readMeasurement_waited_le bus awaited.2 m
      have hshorter : kExecReadMs ≤ kDataReadyPollMs := by decide
      rw [hready, if_pos rfl] at hawait
      simp only [Bool.not_true, Bool.false_eq_true, if_false, Transfer.waited_bind,
        Transfer.waited_ite, Transfer.waited_pure]
      split <;> omega

end

/-- The whole of `sen66 serial`: it prints the text of an answered serial number
    up to its first NUL, never a character of the buffer it started with, and
    fails with one error otherwise. -/
theorem cmdSerial_law {σ : Type} (bus : Bus σ) (s : σ) (serial : CharBuffer) :
    (∀ raw, Answered bus s .getSerialNumber kSerialWords raw →
      ((cmdSerial serial).run bus s).1 = ⟨[.print ("SEN66 serial: ".toList ++
        charsOf ((serialPayload raw ++ [0]).takeWhile (· != 0)))], 0⟩) ∧
    ((∀ raw, ¬ Answered bus s .getSerialNumber kSerialWords raw) →
      ∃ err, err ≠ 0 ∧ ((cmdSerial serial).run bus s).1 =
        ⟨[.error ("SEN66: serial read failed (".toList ++ signed 0 err ++ [')'])], err⟩) := by
  have hrun : ((cmdSerial serial).run bus s).1 =
      if ((readSerialNumber serial).run bus s).1.1 ≠ 0 then
        ⟨[.error ("SEN66: serial read failed (".toList ++
          signed 0 ((readSerialNumber serial).run bus s).1.1 ++ [')'])],
          ((readSerialNumber serial).run bus s).1.1⟩
      else ⟨[.print ("SEN66 serial: ".toList ++
        charsOf ((readSerialNumber serial).run bus s).1.2.cString)], 0⟩ := by
    rw [cmdSerial, Transfer.run_bind, Transfer.run_ite, Transfer.run_pure, Transfer.run_pure]
    split <;> rfl
  rw [hrun]
  obtain ⟨raw, hanswered, hread, hchars⟩ | ⟨hnone, hread⟩ := readSerialNumber_cases bus s serial
  · refine ⟨fun raw' hanswered' => ?_, fun hnone => absurd hanswered (hnone raw)⟩
    have hsame := hanswered'.answered.symm.trans hanswered.answered
    rw [if_neg (not_not_intro hread), CharBuffer.cString, hchars,
      show raw' = raw from congrArg Prod.snd hsame]
  · exact ⟨fun raw hanswered => absurd hanswered (hnone raw), fun _ => ⟨_, hread, if_pos hread⟩⟩

/-- Once a valid frame has been read, `sen66 latest` prints a line for every
    channel behind its heading. -/
theorem cmdLatest_output {shared : Snapshot} (hever : shared.everValid = true) (i : Nat) :
    (cmdLatest shared).output[i + 1]? =
      ((printMeasurement shared.measurement)[i]?).map ShellLine.message := by
  rw [cmdLatest, getLatest]
  simp only [hever, Bool.not_true, Bool.false_eq_true, if_false, List.getElem?_cons_succ,
    List.getElem?_map]

end Sen66
