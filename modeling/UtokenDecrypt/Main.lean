import UtokenDecrypt.BufferFile
import UtokenDecrypt.Card.Recovers
import UtokenDecrypt.Usb.Open

/-!
# The program

`main` of `main.c`, from what `getopt_long` makes of the command line to the exit
status.  The input is read before the device is looked for, and the output is opened
only when there is a cleartext.
-/

namespace UtokenDecrypt

open Foundation
open Usb

/-!
## The code
-/

/-- What `getopt_long` returns.  An option that takes an argument has one. -/
inductive GetoptResult where
  | help
  | debug
  | cardOption (optarg : CString)
  | device (optarg : CString)
  | type (optarg : CString)
  | pin (optarg : CString)
  | output (optarg : CString)
  | unknown

def maxCardopts : Nat := 16

structure MainOptions where
  optDebug : Nat := 0
  optDevice : Option CString := none
  optType : Option CString := none
  optPin : Option CString := none
  optOutput : Option CString := none
  cardopts : List CString := []

/-- One round of the loop over the options, or the status to exit with. -/
def mainOption (o : MainOptions) : GetoptResult -> Except Nat MainOptions
  | .help => .error 0
  | .debug => .ok { o with optDebug := wrap32 (o.optDebug + 1) }
  | .cardOption optarg =>
      if o.cardopts.length ≥ maxCardopts then .error 1
      else .ok { o with cardopts := o.cardopts ++ [optarg] }
  | .device optarg => .ok { o with optDevice := some optarg }
  | .type optarg => .ok { o with optType := some optarg }
  | .pin optarg => .ok { o with optPin := some optarg }
  | .output optarg => .ok { o with optOutput := some optarg }
  | .unknown => .error 1

/-- What the program runs on: the files, the system's view of its USB devices, what is
behind the nodes that can be opened, and memory. -/
structure MainSystem (σ : Type) where
  input : List UInt8 -> InputFile
  usb : UsbSystem
  device : List UInt8 -> σ
  output : Option (List UInt8) -> OutputFile
  fresh : List UInt8
  beyond : Nat -> UInt8

structure MainRun (σ : Type) where
  host : Option (Host σ) := none
  writes : List WriteCall := []

def mainInput (args : List CString) : List UInt8 :=
  args.head?.elim [0x2d] CString.bytes

section

variable {σ : Type} [Usbfs σ]

def mainHost (sys : MainSystem σ) (o : MainOptions) (dev : UsbOpened) : Host σ where
  usb := sys.device dev.devPath
  dev := dev.dev
  optDebug := o.optDebug

def mainStatus : WriteEnd -> Nat
  | .returned value _ => if value then 0 else 1
  | .fatal _ => 2

def mainDecrypt (sys : MainSystem σ) (o : MainOptions) (secret : Buffer) (dev : UsbOpened)
    (fuel : Nat) : Option (Outcome Nat × MainRun σ) :=
  match doit o.optPin secret o.cardopts (mainHost sys o dev) with
  | (.crash, t) => some (.crash, { host := some t })
  | (.hang, t) => some (.hang, { host := some t })
  | (.done none, t) => some (.done 1, { host := some t })
  | (.done (some cleartext), t) =>
      let optOutput := o.optOutput.map CString.bytes
      (bufferWriteFile optOutput (sys.output optOutput) cleartext fuel).map fun ending =>
        (.done (mainStatus ending), { host := some t, writes := ending.st.calls })

/-- The exit status.  Without a type `dev` is read without having been set. -/
def main (sys : MainSystem σ) (opts : List GetoptResult) (args : List CString)
    (fuel : Nat) : Option (Outcome Nat × MainRun σ) :=
  match opts.foldlM mainOption {} with
  | .error status => some (.done status, {})
  | .ok o =>
      if 1 < args.length then some (.done 1, {})
      else
        match bufferReadFile (some (mainInput args)) (sys.input (mainInput args)) with
        | none => some (.done 2, {})
        | some secret =>
            match o.optType with
            | none => some (.crash, {})
            | some optType =>
                match usbParseType optType.bytes with
                | none => some (.done 1, {})
                | some type =>
                    match usbOpenType sys.usb type sys.fresh sys.beyond fuel with
                    | none => none
                    | some .crash => some (.crash, {})
                    | some .hang => some (.hang, {})
                    | some (.done none) => some (.done 1, {})
                    | some (.done (some dev)) => mainDecrypt sys o secret dev fuel

end

/-!
## The options
-/

namespace GetoptResult

def cardOption? : GetoptResult -> Option CString
  | cardOption optarg => some optarg
  | _ => none

def device? : GetoptResult -> Option CString
  | device optarg => some optarg
  | _ => none

def type? : GetoptResult -> Option CString
  | type optarg => some optarg
  | _ => none

def pin? : GetoptResult -> Option CString
  | pin optarg => some optarg
  | _ => none

def output? : GetoptResult -> Option CString
  | output optarg => some optarg
  | _ => none

def isDebug : GetoptResult -> Bool
  | debug => true
  | _ => false

end GetoptResult

/-- What options mean: the last of each kind counts, and all card options do, in
order. -/
def mainOptions (opts : List GetoptResult) : MainOptions where
  optDebug := wrap32 (opts.countP GetoptResult.isDebug)
  optDevice := (opts.filterMap GetoptResult.device?).getLast?
  optType := (opts.filterMap GetoptResult.type?).getLast?
  optPin := (opts.filterMap GetoptResult.pin?).getLast?
  optOutput := (opts.filterMap GetoptResult.output?).getLast?
  cardopts := opts.filterMap GetoptResult.cardOption?

structure OptionsTaken (opts : List GetoptResult) : Prop where
  known : GetoptResult.unknown ∉ opts
  noHelp : GetoptResult.help ∉ opts
  atMost : (opts.filterMap GetoptResult.cardOption?).length ≤ maxCardopts

/-- An option is taken as part of those before it, or the program exits. -/
theorem mainOption_snoc {opts : List GetoptResult} (h : OptionsTaken opts)
    (opt : GetoptResult) :
    (OptionsTaken (opts ++ [opt]) ∧
      mainOption (mainOptions opts) opt = .ok (mainOptions (opts ++ [opt]))) ∨
    (¬ OptionsTaken (opts ++ [opt]) ∧
      exists status, mainOption (mainOptions opts) opt = .error status ∧ status ≤ 1 ∧
        (status = 0 -> opt = .help)) := by
  have hmem : OptionsTaken (opts ++ [opt]) ↔ opt ≠ .unknown ∧ opt ≠ .help ∧
      ((opts ++ [opt]).filterMap GetoptResult.cardOption?).length ≤ maxCardopts := by
    constructor
    · intro hall
      exact ⟨fun heq => hall.known (by simp [heq]), fun heq => hall.noHelp (by simp [heq]),
        hall.atMost⟩
    · intro hopt
      refine ⟨?_, ?_, hopt.2.2⟩
      · simpa [h.known] using hopt.1.symm
      · simpa [h.noHelp] using hopt.2.1.symm
  have hcards := h.atMost
  have hdebug : forall n, wrap32 (wrap32 n + 1) = wrap32 (n + 1) := by
    intro n
    unfold wrap32
    lia
  rw [hmem]
  cases opt with
  | help => exact Or.inr ⟨fun hall => hall.2.1 rfl, 0, rfl, Nat.zero_le 1, fun _ => rfl⟩
  | unknown =>
      exact Or.inr ⟨fun hall => hall.1 rfl, 1, rfl, Nat.le_refl 1, fun hbad => by cases hbad⟩
  | cardOption optarg =>
      have hlength : ((opts ++ [GetoptResult.cardOption optarg]).filterMap
          GetoptResult.cardOption?).length =
          (opts.filterMap GetoptResult.cardOption?).length + 1 := by
        simp [GetoptResult.cardOption?]
      by_cases hfull : (opts.filterMap GetoptResult.cardOption?).length ≥ maxCardopts
      · refine Or.inr ⟨fun hall => by lia, 1, ?_, Nat.le_refl 1, fun hbad => by cases hbad⟩
        exact if_pos hfull
      · refine Or.inl ⟨⟨by simp, by simp, by lia⟩, ?_⟩
        refine (if_neg hfull).trans ?_
        simp [mainOptions, List.filterMap_cons, GetoptResult.cardOption?,
          GetoptResult.device?, GetoptResult.type?, GetoptResult.pin?,
          GetoptResult.output?, GetoptResult.isDebug]
  | debug =>
      refine Or.inl ⟨⟨by simp, by simp, ?_⟩, ?_⟩
      · simpa [List.filterMap_cons, GetoptResult.cardOption?] using hcards
      · simp [mainOption, mainOptions, List.filterMap_cons, GetoptResult.cardOption?,
          GetoptResult.device?, GetoptResult.type?, GetoptResult.pin?,
          GetoptResult.output?, GetoptResult.isDebug, hdebug]
  | device optarg | type optarg | pin optarg | output optarg =>
      refine Or.inl ⟨⟨by simp, by simp, ?_⟩, ?_⟩
      · simpa [List.filterMap_cons, GetoptResult.cardOption?] using hcards
      · simp [mainOption, mainOptions, List.filterMap_cons, GetoptResult.cardOption?,
          GetoptResult.device?, GetoptResult.type?, GetoptResult.pin?,
          GetoptResult.output?, GetoptResult.isDebug]

/-- The loop over the options comes to their meaning, or it exits. -/
theorem foldlM_mainOption {before rest : List GetoptResult} (h : OptionsTaken before) :
    (OptionsTaken (before ++ rest) ∧
      rest.foldlM mainOption (mainOptions before) = .ok (mainOptions (before ++ rest))) ∨
    (¬ OptionsTaken (before ++ rest) ∧
      exists status, rest.foldlM mainOption (mainOptions before) = .error status ∧
        status ≤ 1 ∧ (status = 0 -> .help ∈ rest)) := by
  induction rest generalizing before with
  | nil =>
      rw [List.append_nil]
      exact Or.inl ⟨h, rfl⟩
  | cons opt rest ih =>
      have hsplit : before ++ opt :: rest = (before ++ [opt]) ++ rest := by simp
      rw [List.foldlM_cons, hsplit]
      rcases mainOption_snoc h opt with ⟨htaken, hopt⟩ | ⟨hnot, status, hopt, hle, hhelp⟩
      · rw [hopt]
        rcases ih htaken with hall | ⟨hnot, status, hrest, hle, hhelp⟩
        · exact Or.inl hall
        · exact Or.inr ⟨hnot, status, hrest, hle, fun hzero =>
            List.mem_cons_of_mem opt (hhelp hzero)⟩
      · rw [hopt]
        refine Or.inr ⟨?_, status, rfl, hle, fun hzero => by simp [hhelp hzero]⟩
        intro hall
        apply hnot
        refine ⟨fun hmem => hall.known (List.mem_append_left _ hmem),
          fun hmem => hall.noHelp (List.mem_append_left _ hmem), ?_⟩
        exact ((List.sublist_append_left (before ++ [opt]) rest).filterMap
          GetoptResult.cardOption?).length_le.trans hall.atMost

theorem foldlM_mainOption_start (opts : List GetoptResult) :
    (OptionsTaken opts ∧ opts.foldlM mainOption {} = .ok (mainOptions opts)) ∨
    (¬ OptionsTaken opts ∧ exists status, opts.foldlM mainOption {} = .error status ∧
      status ≤ 1 ∧ (status = 0 -> .help ∈ opts)) := by
  have hstart : OptionsTaken [] :=
    ⟨List.not_mem_nil, List.not_mem_nil, Nat.zero_le maxCardopts⟩
  exact foldlM_mainOption hstart

/-!
## A run on a bus of devices
-/

/-- What the program runs on, with a bus of devices whose files of descriptors are of
`size` bytes.  The kernel tells the truth about what it has written, and does not return
without having written anything. -/
structure Workstation (σ : Type) where
  bus : UsbBus
  size : Nat
  input : List UInt8 -> InputFile
  device : List UInt8 -> σ
  output : Option (List UInt8) -> OutputFile
  honest : forall name, (output name).Honest
  progresses : forall name, (output name).Progresses
  fresh : List UInt8
  fresh_length : fresh.length = size
  beyond : Nat -> UInt8

def Workstation.system {σ : Type} (ws : Workstation σ) : MainSystem σ where
  input := ws.input
  usb := ws.bus.system ws.size
  device := ws.device
  output := ws.output
  fresh := ws.fresh
  beyond := ws.beyond

section

variable {σ : Type} [Usbfs σ]

/-- With enough fuel a run ends in this way. -/
def MainEnds (sys : MainSystem σ) (opts : List GetoptResult) (args : List CString)
    (outcome : Outcome Nat) (run : MainRun σ) : Prop :=
  exists enough, forall fuel, enough ≤ fuel ->
    main sys opts args fuel = some (outcome, run)

/-- A run gets to `doit`: its options are taken, the input has been read, and the first
device that passes the filter has been opened. -/
structure StartsDoit (ws : Workstation σ) (opts : List GetoptResult) (args : List CString)
    (secret : Buffer) (dev : UsbOpened) : Prop where
  options : OptionsTaken opts
  atMost : args.length ≤ 1
  input : bufferReadFile (some (mainInput args)) (ws.input (mainInput args)) = some secret
  opened : exists optType type, (mainOptions opts).optType = some optType ∧
    usbParseType optType.bytes = some type ∧ ws.bus.opened type = some dev

def mainDoit (ws : Workstation σ) (opts : List GetoptResult) (secret : Buffer)
    (dev : UsbOpened) : Outcome (Option Buffer) × Host σ :=
  doit (mainOptions opts).optPin secret (mainOptions opts).cardopts
    (mainHost ws.system (mainOptions opts) dev)

/-- The run has started `doit`, and `doit` left the device as it is now. -/
def RanDoit (ws : Workstation σ) (opts : List GetoptResult) (args : List CString)
    (result : Outcome (Option Buffer)) (run : MainRun σ) : Prop :=
  exists secret dev t, StartsDoit ws opts args secret dev ∧
    mainDoit ws opts secret dev = (result, t) ∧ run.host = some t

def MainRun.output (run : MainRun σ) : List UInt8 :=
  run.writes.flatMap WriteCall.accepted

/-- What holds of every run. -/
structure MainMeets (ws : Workstation σ) (opts : List GetoptResult) (args : List CString)
    (outcome : Outcome Nat) (run : MainRun σ) : Prop where
  status : forall status, outcome = .done status -> status ≤ 2
  device : run.host ≠ none -> exists result, RanDoit ws opts args result run
  hangs : outcome = .hang -> RanDoit ws opts args .hang run
  crashes : outcome = .crash ->
    (OptionsTaken opts ∧ (mainOptions opts).optType = none) ∨ RanDoit ws opts args .crash run
  output : run.output ≠ [] -> exists cleartext,
    RanDoit ws opts args (.done (some cleartext)) run ∧ run.output <+: cleartext.contents
  success : outcome = .done 0 -> .help ∉ opts -> exists cleartext,
    RanDoit ws opts args (.done (some cleartext)) run ∧ run.output = cleartext.contents

section

variable {ws : Workstation σ} {opts : List GetoptResult} {args : List CString}
  {secret : Buffer} {dev : UsbOpened}

theorem StartsDoit.main_eq (hbus : ws.bus.Readable ws.size)
    (h : StartsDoit ws opts args secret dev) :
    exists enough, forall fuel, enough ≤ fuel -> main ws.system opts args fuel =
      mainDecrypt ws.system (mainOptions opts) secret dev fuel := by
  rcases h.opened with ⟨optType, type, htype, hparse, hopened⟩
  rcases usbOpenType_ends ws.bus type hbus ws.fresh_length ws.beyond with
    ⟨enough, hopens⟩
  refine ⟨enough, fun fuel hfuel => ?_⟩
  have hopen : usbOpenType ws.system.usb type ws.system.fresh ws.system.beyond fuel =
      some (.done (some dev)) := by
    rw [← hopened]
    exact hopens fuel hfuel
  have hread : bufferReadFile (some (mainInput args)) (ws.system.input (mainInput args)) =
      some secret := h.input
  rcases foldlM_mainOption_start opts with ⟨_, hoptions⟩ | ⟨hnot, _⟩
  · simp only [main, hoptions, hread, htype, hparse, hopen]
    rw [if_neg (Nat.not_lt.mpr h.atMost)]
  · exact absurd h.options hnot

theorem mainDecrypt_some {cleartext : Buffer} {t : Host σ}
    (hrun : mainDoit ws opts secret dev = (.done (some cleartext), t)) (fuel : Nat) :
    mainDecrypt ws.system (mainOptions opts) secret dev fuel =
      (bufferWriteFile ((mainOptions opts).optOutput.map CString.bytes)
        (ws.output ((mainOptions opts).optOutput.map CString.bytes)) cleartext fuel).map
          fun ending => (.done (mainStatus ending),
            { host := some t, writes := ending.st.calls }) := by
  have hdoit : doit (mainOptions opts).optPin secret (mainOptions opts).cardopts
      (mainHost ws.system (mainOptions opts) dev) = (.done (some cleartext), t) := hrun
  rw [mainDecrypt, hdoit]
  rfl

/-- When it does not, the run ends there. -/
theorem mainDecrypt_other {result : Outcome (Option Buffer)} {t : Host σ}
    (hrun : mainDoit ws opts secret dev = (result, t))
    (hno : forall cleartext, result ≠ .done (some cleartext)) (fuel : Nat) :
    mainDecrypt ws.system (mainOptions opts) secret dev fuel =
      some (result.map fun _ => 1, { host := some t }) := by
  have hdoit : doit (mainOptions opts).optPin secret (mainOptions opts).cardopts
      (mainHost ws.system (mainOptions opts) dev) = (result, t) := hrun
  rw [mainDecrypt, hdoit]
  cases result with
  | crash => rfl
  | hang => rfl
  | done got =>
      cases got with
      | none => rfl
      | some cleartext => exact absurd rfl (hno cleartext)

theorem mainStatus_le (ending : WriteEnd) : mainStatus ending ≤ 2 := by
  cases ending with
  | returned value st =>
      cases value with
      | true => exact Nat.zero_le 2
      | false => exact Nat.le_succ 1
  | fatal st => exact Nat.le_refl 2

/-- Only a `true` returned gives the status 0. -/
theorem mainStatus_eq_zero {ending : WriteEnd} (h : mainStatus ending = 0) :
    exists st, ending = .returned true st := by
  cases ending with
  | returned value st =>
      cases value with
      | true => exact ⟨st, rfl⟩
      | false => cases h
  | fatal st => cases h

theorem MainMeets.stopped {status : Nat} (hle : status ≤ 2)
    (hhelp : status = 0 -> .help ∈ opts) : MainMeets ws opts args (.done status) {} where
  status := by
    intro other h
    injection h with h
    exact h ▸ hle
  device := fun h => absurd rfl h
  hangs := fun h => by cases h
  crashes := fun h => by cases h
  output := fun h => absurd rfl h
  success := by
    intro h hno
    injection h with h
    exact absurd (hhelp h) hno

theorem MainMeets.untyped (htaken : OptionsTaken opts)
    (htype : (mainOptions opts).optType = none) : MainMeets ws opts args .crash {} where
  status := fun _ h => by cases h
  device := fun h => absurd rfl h
  hangs := fun h => by cases h
  crashes := fun _ => Or.inl ⟨htaken, htype⟩
  output := fun h => absurd rfl h
  success := fun h => by cases h

theorem MainMeets.unanswered {result : Outcome (Option Buffer)} {run : MainRun σ}
    (hran : RanDoit ws opts args result run) (hwrites : run.writes = []) :
    MainMeets ws opts args (result.map fun _ => 1) run where
  status := by
    intro status hstatus
    cases result with
    | done got =>
        injection hstatus with hstatus
        lia
    | crash => cases hstatus
    | hang => cases hstatus
  device := fun _ => ⟨result, hran⟩
  hangs := by
    intro hhang
    rw [(Outcome.map_hang_iff result _).mp hhang] at hran
    exact hran
  crashes := by
    intro hcrash
    cases result with
    | done got => cases hcrash
    | crash => exact Or.inr hran
    | hang => cases hcrash
  output := by
    intro houtput
    rw [MainRun.output, hwrites] at houtput
    exact absurd rfl houtput
  success := by
    intro hzero
    cases result with
    | done got => cases hzero
    | crash => cases hzero
    | hang => cases hzero

theorem MainMeets.wrote {cleartext : Buffer} {ending : WriteEnd} {run : MainRun σ}
    (hran : RanDoit ws opts args (.done (some cleartext)) run)
    (hfront : run.output <+: cleartext.contents)
    (hall : forall st, ending = .returned true st -> run.output = cleartext.contents) :
    MainMeets ws opts args (.done (mainStatus ending)) run where
  status := by
    intro status hstatus
    injection hstatus with hstatus
    rw [← hstatus]
    exact mainStatus_le ending
  device := fun _ => ⟨_, hran⟩
  hangs := fun h => by cases h
  crashes := fun h => by cases h
  output := fun _ => ⟨cleartext, hran, hfront⟩
  success := by
    intro hzero _
    injection hzero with hzero
    rcases mainStatus_eq_zero hzero with ⟨last, hlast⟩
    exact ⟨cleartext, hran, hall last hlast⟩

/-- A run that gets to `doit` ends as what comes behind it does. -/
theorem StartsDoit.mainEnds (hbus : ws.bus.Readable ws.size)
    (h : StartsDoit ws opts args secret dev) {outcome : Outcome Nat}
    {run : MainRun σ} (hruns : exists enough, forall fuel, enough ≤ fuel ->
      mainDecrypt ws.system (mainOptions opts) secret dev fuel = some (outcome, run)) :
    MainEnds ws.system opts args outcome run := by
  rcases h.main_eq hbus with ⟨enough, hmain⟩
  rcases hruns with ⟨more, hruns⟩
  exact ⟨max enough more, fun fuel hfuel => (hmain fuel (by lia)).trans
    (hruns fuel (by lia))⟩

theorem StartsDoit.ends (hbus : ws.bus.Readable ws.size)
    (h : StartsDoit ws opts args secret dev) :
    exists outcome run, MainEnds ws.system opts args outcome run ∧
      MainMeets ws opts args outcome run := by
  rcases hdoit : mainDoit ws opts secret dev with ⟨result, t⟩
  have hran : forall writes, RanDoit ws opts args result { host := some t, writes := writes } :=
    fun writes => ⟨secret, dev, t, h, hdoit, rfl⟩
  by_cases hno : forall cleartext, result ≠ .done (some cleartext)
  · exact ⟨_, _, h.mainEnds hbus ⟨0, fun fuel _ => mainDecrypt_other hdoit hno fuel⟩,
      .unanswered (hran []) rfl⟩
  · push Not at hno
    rcases hno with ⟨cleartext, rfl⟩
    have hsecret : secret.Wf := (bufferReadFile_some h.input).choose_spec.2.2.2.2
    have hwf : cleartext.Wf := ((doit_returned _ hsecret _ _).apply hdoit).1
    let name := (mainOptions opts).optOutput.map CString.bytes
    rcases bufferWriteFile_ends (ws.honest name) (ws.progresses name) hwf name with
      ⟨more, ending, hwrite⟩
    have hfront := bufferWriteFile_prefix (ws.honest name) hwf
      (hwrite more (Nat.le_refl more))
    have hall : forall st, ending = .returned true st ->
        ending.st.accepted = cleartext.contents := by
      intro st hst
      have haccepted := (hfront.2 true st hst).2
      rw [hst]
      exact haccepted
    refine ⟨.done (mainStatus ending), { host := some t, writes := ending.st.calls },
      h.mainEnds hbus ⟨more, fun fuel hfuel => ?_⟩, .wrote (hran _) hfront.1 hall⟩
    rw [mainDecrypt_some hdoit, hwrite fuel hfuel]
    rfl

theorem main_ends (ws : Workstation σ) (hbus : ws.bus.Readable ws.size)
    (opts : List GetoptResult) (args : List CString) :
    exists outcome run, MainEnds ws.system opts args outcome run ∧
      MainMeets ws opts args outcome run := by
  have hstops : forall status, MainEnds ws.system opts args (.done (status + 1)) {} ->
      status ≤ 1 -> exists outcome run, MainEnds ws.system opts args outcome run ∧
        MainMeets ws opts args outcome run :=
    fun _ hends hle => ⟨_, _, hends, .stopped (by lia) fun hbad => by cases hbad⟩
  rcases foldlM_mainOption_start opts with ⟨htaken, hoptions⟩ |
    ⟨_, status, hoptions, hle, hhelp⟩
  · by_cases hargs : 1 < args.length
    · refine hstops 0 ⟨0, fun fuel _ => ?_⟩ (Nat.zero_le 1)
      simp only [main, hoptions]
      rw [if_pos hargs]
    · cases hread : bufferReadFile (some (mainInput args)) (ws.input (mainInput args)) with
      | none =>
          refine hstops 1 ⟨0, fun fuel _ => ?_⟩ (Nat.le_refl 1)
          simp only [main, hoptions, Workstation.system, hread]
          rw [if_neg hargs]
      | some secret =>
          cases htype : (mainOptions opts).optType with
          | none =>
              refine ⟨.crash, {}, ⟨0, fun fuel _ => ?_⟩, .untyped htaken htype⟩
              simp only [main, hoptions, Workstation.system, hread, htype]
              rw [if_neg hargs]
          | some optType =>
              cases hparse : usbParseType optType.bytes with
              | none =>
                  refine hstops 0 ⟨0, fun fuel _ => ?_⟩ (Nat.zero_le 1)
                  simp only [main, hoptions, Workstation.system, hread, htype, hparse]
                  rw [if_neg hargs]
              | some type =>
                  cases hopened : ws.bus.opened type with
                  | none =>
                      rcases usbOpenType_ends ws.bus type hbus ws.fresh_length
                        ws.beyond with ⟨enough, hopens⟩
                      refine hstops 0 ⟨enough, fun fuel hfuel => ?_⟩
                        (Nat.zero_le 1)
                      simp only [main, hoptions, Workstation.system, hread, htype, hparse,
                        hopens fuel hfuel, hopened]
                      rw [if_neg hargs]
                  | some dev =>
                      exact StartsDoit.ends hbus ⟨htaken, Nat.not_lt.mp hargs, hread, optType,
                        type, htype, hparse, hopened⟩
  · refine ⟨.done status, {}, ⟨0, fun fuel _ => ?_⟩, .stopped (by lia) hhelp⟩
    simp only [main, hoptions]

/-- A run ends in one way. -/
theorem MainEnds.unique {sys : MainSystem σ} {first second : Outcome Nat}
    {run other : MainRun σ} (h1 : MainEnds sys opts args first run)
    (h2 : MainEnds sys opts args second other) : first = second ∧ run = other := by
  rcases h1 with ⟨n, h1⟩
  rcases h2 with ⟨m, h2⟩
  have hsame := (h1 (max n m) (Nat.le_max_left n m)).symm.trans
    (h2 (max n m) (Nat.le_max_right n m))
  injection hsame with hsame
  exact Prod.mk.inj hsame

theorem MainEnds.meets (hbus : ws.bus.Readable ws.size) {outcome : Outcome Nat}
    {run : MainRun σ} (h : MainEnds ws.system opts args outcome run) :
    MainMeets ws opts args outcome run := by
  rcases main_ends ws hbus opts args with ⟨_, _, hends, hmeets⟩
  rcases h.unique hends with ⟨rfl, rfl⟩
  exact hmeets

end

/-- Every run ends, and meets what is asked of it, on a bus of devices that the code can
read. -/
theorem main_meets (ws : Workstation σ) (hbus : ws.bus.Readable ws.size)
    (opts : List GetoptResult) (args : List CString) :
    (exists outcome run, MainEnds ws.system opts args outcome run) ∧
      forall outcome run, MainEnds ws.system opts args outcome run ->
        MainMeets ws opts args outcome run := by
  rcases main_ends ws hbus opts args with ⟨outcome, run, hends, _⟩
  exact ⟨⟨outcome, run, hends⟩, fun _ _ h => h.meets hbus⟩

/-- A run that succeeds has read a whole file of the size of a key, which no pipe has, and
has written the message that the reply of the device wraps. -/
theorem main_unlocks (ws : Workstation σ) (hbus : ws.bus.Readable ws.size)
    {opts : List GetoptResult} {args : List CString} {run : MainRun σ} (hhelp : .help ∉ opts)
    (h : MainEnds ws.system opts args (.done 0) run) :
    exists secret dev t, StartsDoit ws opts args secret dev ∧ run.host = some t ∧
      Unlocks (mainOptions opts).optPin (mainOptions opts).cardopts secret.contents
        (mainHost ws.system (mainOptions opts) dev) t run.output ∧
      exists stSize, (stSize = 128 ∨ stSize = 256) ∧
        (ws.input (mainInput args)).stSize = some stSize ∧
        (ws.input (mainInput args)).read stSize = some secret.contents := by
  rcases (h.meets hbus).success rfl hhelp with
    ⟨cleartext, ⟨secret, dev, t, hstarts, hdoit, hhost⟩, houtput⟩
  rcases bufferReadFile_some hstarts.input with ⟨stSize, hsize, hread, hlength, _, hwf⟩
  have hunlocks := ((doit_returned _ hwf _ _).apply hdoit).2
  rw [← houtput] at hunlocks
  refine ⟨secret, dev, t, hstarts, hhost, hunlocks, stSize, ?_, hsize, hread⟩
  rcases hunlocks with ⟨_, _, _, _, _, _, _, _, _, _, _, _, hsent, _⟩
  rcases hsent.sent with ⟨algorithm, _, halgorithm, _⟩
  rw [← hlength]
  unfold yubikeyAlgorithm at halgorithm
  split_ifs at halgorithm with h128 h256
  · exact Or.inl h128
  · exact Or.inr h256

end

/-!
## A token that deciphers
-/

section

variable {σ : Type} [Usbfs σ] {ws : Workstation σ} {opts : List GetoptResult}
  {args : List CString} {secret : Buffer} {dev : UsbOpened}

/-- A cleartext is written to an output that takes it. -/
theorem StartsDoit.decrypted (hbus : ws.bus.Readable ws.size)
    (h : StartsDoit ws opts args secret dev) {message : List UInt8}
    (hworks : (ws.output ((mainOptions opts).optOutput.map CString.bytes)).Works
      ((mainOptions opts).optOutput.map CString.bytes))
    (hshort : message.length < 2 ^ 31)
    (hdecrypted : Decrypted message (mainDoit ws opts secret dev)) :
    exists run, MainEnds ws.system opts args (.done 0) run ∧ run.output = message := by
  rcases hdecrypted with ⟨cleartext, hresult, hwf, hcontents⟩
  rcases hdoit : mainDoit ws opts secret dev with ⟨result, t⟩
  rw [hdoit] at hresult
  dsimp only at hresult
  rw [hresult] at hdoit
  let name := (mainOptions opts).optOutput.map CString.bytes
  rcases bufferWriteFile_returned (ws.honest name) (ws.progresses name) hworks hwf
    (by rw [hcontents]; exact hshort) with ⟨more, last, haccepted, hwrite⟩
  refine ⟨{ host := some t, writes := last.calls },
    h.mainEnds hbus ⟨more, fun fuel hfuel => ?_⟩, haccepted.trans hcontents⟩
  rw [mainDecrypt_some hdoit, hwrite fuel hfuel]
  rfl

/-- Without one, nothing is written. -/
theorem StartsDoit.failed (hbus : ws.bus.Readable ws.size)
    (h : StartsDoit ws opts args secret dev)
    (hnone : (mainDoit ws opts secret dev).1 = .done none) :
    exists run, MainEnds ws.system opts args (.done 1) run ∧ run.writes = [] := by
  rcases hdoit : mainDoit ws opts secret dev with ⟨result, t⟩
  rw [hdoit] at hnone
  dsimp only at hnone
  rw [hnone] at hdoit
  refine ⟨{ host := some t }, h.mainEnds hbus ⟨0, fun fuel _ => ?_⟩, rfl⟩
  exact mainDecrypt_other hdoit (fun cleartext hbad => by cases hbad) fuel

/-- With a token that does its part the program succeeds, with the message in the output,
exactly if the reply fits behind a header in a receive buffer; otherwise it fails and
nothing has been written. -/
theorem main_recovers_iff (hbus : ws.bus.Readable ws.size)
    (h : StartsDoit ws opts args secret dev) {start : Host σ} {tw : TokenWires σ}
    {padding message reply : List UInt8} {chunks : List (List UInt8)}
    (hserves : TokenServes start (mainOptions opts).optPin (mainOptions opts).cardopts secret
      tw padding message reply chunks)
    (hcreate : ccidReaderCreate (mainHost ws.system (mainOptions opts) dev) =
      (.done true, start))
    (hopts : forall option, option ∈ (mainOptions opts).cardopts -> OptionTaken option)
    (hworks : (ws.output ((mainOptions opts).optOutput.map CString.bytes)).Works
      ((mainOptions opts).optOutput.map CString.bytes))
    {outcome : Outcome Nat} {run : MainRun σ}
    (hends : MainEnds ws.system opts args outcome run) :
    (outcome = .done 0 ∧ run.output = message ↔
      10 + reply.length ≤ capacity start.reader.maxMessageSize) ∧
    (outcome = .done 1 ∧ run.writes = [] ↔
      capacity start.reader.maxMessageSize < 10 + reply.length) := by
  have hruns := hserves.runs hcreate hopts
  have hyes : 10 + reply.length ≤ capacity start.reader.maxMessageSize ->
      outcome = .done 0 ∧ run.output = message := by
    intro hroom
    rcases h.decrypted hbus hworks (hserves.message_lt hcreate hopts) (hruns.1 hroom) with
      ⟨other, hother, houtput⟩
    rcases hends.unique hother with ⟨rfl, rfl⟩
    exact ⟨rfl, houtput⟩
  have hno : capacity start.reader.maxMessageSize < 10 + reply.length ->
      outcome = .done 1 ∧ run.writes = [] := by
    intro hfull
    rcases h.failed hbus (hruns.2 hfull) with ⟨other, hother, hwrites⟩
    rcases hends.unique hother with ⟨rfl, rfl⟩
    exact ⟨rfl, hwrites⟩
  refine ⟨⟨fun hdone => ?_, hyes⟩, ⟨fun hdone => ?_, hno⟩⟩
  · by_contra hfull
    have hfailed := (hno (by lia)).1
    rw [hdone.1] at hfailed
    cases hfailed
  · by_contra hroom
    have hsucceeded := (hyes (by lia)).1
    rw [hdone.1] at hsucceeded
    cases hsucceeded

end

/-!
## A token that is plugged in
-/

/-- A token with a CCID interface only. -/
def readerTree : DeviceTree where
  dt := { descriptor := { idVendor := 0x1050, bNumConfigurations := 1 } }
  configs :=
    [{ dt := { descriptor := { bNumInterfaces := 1, bConfigurationValue := 1 } }
       interfaces :=
        [{ dt := { descriptor := { bInterface := { cls := 11 }, bNumEndpoints := 2 } }
           items :=
            [ .ccid { dtType := 0x21, descriptor := {
                bVoltageSupport := 1
                dwProtocols := 1
                dwFeatures := 0x20042
                dwMaxCCIDMessageLength := 271 } },
              .endpoint { descriptor := { bEndpointAddress := 0x02, bmAttributes := 2 } },
              .endpoint { descriptor := { bEndpointAddress := 0x81, bmAttributes := 2 } } ] }] }]

def readerDevice : UsbDevice where
  type := { idVendor := 0x1050, idProduct := 0x0407 }
  devaddr := { bus := 1, dev := 12 }
  major := 189
  minor := 11
  tree := readerTree
  pieces := [readerTree.bytes]

/-- A desk with one token, whose card takes the PIN and decrypts. -/
def tokenStation : Workstation Script where
  bus := {
    entries := [("1-4".toUTF8.toList, some readerDevice)]
    nodup := by decide +kernel
    node := fun path =>
      if path = "/dev/bus/usb/001/012".toUTF8.toList then
        some { isChr := true, major := 189, minor := 11, opens := true }
      else none }
  size := 128
  input := fun _ => {
    opens := true
    stSize := some 128
    read := fun count => some ((List.replicate 128 0x55).take count)
    read_le := by
      intro count bytes h
      injection h with h
      rw [← h]
      exact List.length_take_le count _ }
  device := fun _ => answeringHost.usb
  output := fun _ => {
    opens := true
    write := fun _ count => if count < 2 ^ 63 then some count else none }
  honest := by
    intro name i count result h
    dsimp only at h
    split at h
    · rename_i hlt
      injection h with h
      exact ⟨Nat.le_of_eq h.symm, hlt⟩
    · cases h
  progresses := by
    intro name i count h
    dsimp only at h
    split at h
    · injection h with h
    · cases h
  fresh := List.replicate 128 0
  fresh_length := List.length_replicate
  beyond := fun _ => 0

theorem tokenStation_readable : tokenStation.bus.Readable tokenStation.size := by
  refine ⟨by decide, fun name d hmem => ?_⟩
  have heq := List.mem_singleton.mp hmem
  injection heq with _ heq
  injection heq with heq
  rw [heq]
  exact ⟨by decide, rfl, by decide +kernel⟩

def yubicoType : CString where
  bytes := "1050".toUTF8.toList
  noNul := by decide +kernel

def stationOpts : List GetoptResult :=
  [.type yubicoType, .pin somePin]

def stationDev : UsbOpened where
  sysfsDir := "1-4".toUTF8.toList
  devPath := "/dev/bus/usb/001/012".toUTF8.toList
  type := { idVendor := 0x1050, idProduct := 0x0407 }
  devaddr := { bus := 1, dev := 12 }
  dev := readerTree.dev

theorem station_starts :
    StartsDoit tokenStation stationOpts [] (someCiphertext 128) stationDev where
  options := ⟨by simp [stationOpts], by simp [stationOpts], by decide +kernel⟩
  atMost := Nat.zero_le 1
  input := by decide +kernel
  opened := ⟨yubicoType, { idVendor := 0x1050, idProduct := 0 }, rfl, by decide +kernel,
    by decide +kernel⟩

theorem station_works :
    (tokenStation.output ((mainOptions stationOpts).optOutput.map CString.bytes)).Works
      ((mainOptions stationOpts).optOutput.map CString.bytes) := by
  refine ⟨Or.inl rfl, fun i count hlt => ?_⟩
  change (if count < 2 ^ 63 then some count else none) ≠ none
  rw [if_pos (by lia)]
  exact Option.some_ne_none count

def stationHost : Host Script :=
  mainHost tokenStation.system (mainOptions stationOpts) stationDev

theorem station_serves : exists tw, TokenServes (ccidReaderCreate stationHost).2
    (mainOptions stationOpts).optPin (mainOptions stationOpts).cardopts (someCiphertext 128)
    tw (somePadding 128) someMessage (someReply 128) [someReply 128] :=
  script_serves (by decide +kernel) (by decide +kernel) rfl

theorem station_ends :
    exists run, MainEnds tokenStation.system stationOpts [] (.done 0) run := by
  rcases station_serves with ⟨tw, hserves⟩
  have hcreate : ccidReaderCreate stationHost =
      (.done true, (ccidReaderCreate stationHost).2) := Prod.ext rfl rfl
  have hopts : forall option, option ∈ (mainOptions stationOpts).cardopts ->
      OptionTaken option := fun _ hmem => (List.not_mem_nil hmem).elim
  rcases station_starts.decrypted tokenStation_readable station_works
    (hserves.message_lt hcreate hopts)
    ((hserves.runs hcreate hopts).1 (by decide +kernel)) with ⟨run, hends, _⟩
  exact ⟨run, hends⟩

theorem main_recovers_station : exists run : MainRun Script,
    MainEnds tokenStation.system stationOpts [] (.done 0) run ∧
      run.output = someMessage := by
  rcases station_ends with ⟨run, hends⟩
  rcases station_serves with ⟨tw, hserves⟩
  refine ⟨run, hends, ?_⟩
  exact ((main_recovers_iff tokenStation_readable station_starts hserves
    (Prod.ext rfl rfl) (fun _ hmem => (List.not_mem_nil hmem).elim) station_works
    hends).1.mpr (by decide +kernel)).2

theorem main_meets_station : exists outcome run,
    MainEnds tokenStation.system stationOpts [] outcome run ∧
      MainMeets tokenStation stationOpts [] outcome run := by
  have hmeets := main_meets tokenStation tokenStation_readable stationOpts []
  rcases hmeets.1 with ⟨outcome, run, hends⟩
  exact ⟨outcome, run, hends, hmeets.2 outcome run hends⟩

/-- The input is as long as the key, and the message comes out of the reply. -/
theorem main_unlocks_station : exists (run : MainRun Script) (secret : Buffer)
    (dev : UsbOpened) (t : Host Script),
    StartsDoit tokenStation stationOpts [] secret dev ∧ run.host = some t ∧
      Unlocks (mainOptions stationOpts).optPin (mainOptions stationOpts).cardopts
        secret.contents (mainHost tokenStation.system (mainOptions stationOpts) dev) t
        run.output ∧
      exists stSize, (stSize = 128 ∨ stSize = 256) ∧
        (tokenStation.input (mainInput [])).stSize = some stSize ∧
        (tokenStation.input (mainInput [])).read stSize = some secret.contents := by
  rcases station_ends with ⟨run, hends⟩
  exact ⟨run, main_unlocks tokenStation tokenStation_readable (by simp [stationOpts]) hends⟩

end UtokenDecrypt
