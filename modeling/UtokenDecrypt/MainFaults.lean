import UtokenDecrypt.Card.Crash
import UtokenDecrypt.Main

/-!
# What the program crashes on

Without a type `main` uses a device that it never opened.  All else that is a fault happens
in `doit`, so that the records of a run tell whether it exits.
-/

namespace UtokenDecrypt

open Foundation
open Usb

section

variable {σ : Type} [Usbfs σ] {ws : Workstation σ} {opts : List GetoptResult}
  {args : List CString} {outcome : Outcome Nat} {run : MainRun σ}

/-- The run gets as far as to the type of the device, and none was given, so that it goes
on with a pointer that has never been set. -/
structure LacksType (ws : Workstation σ) (opts : List GetoptResult)
    (args : List CString) : Prop where
  options : OptionsTaken opts
  atMost : args.length ≤ 1
  input : bufferReadFile (some (mainInput args)) (ws.input (mainInput args)) ≠ none
  untyped : (mainOptions opts).optType = none

/-- The device has sent a packet without a header, or with less than its header
declares. -/
def SentTruncated (run : MainRun σ) : Prop :=
  exists t event, run.host = some t ∧ event ∈ t.log ∧ event.Truncated

structure MainFails (ws : Workstation σ) (opts : List GetoptResult) (args : List CString)
    (outcome : Outcome Nat) (run : MainRun σ) : Prop where
  ends : outcome ≠ .hang
  crash_iff : outcome = .crash ↔ LacksType ws opts args ∨ SentTruncated run

/-!
## In front of `doit`
-/

theorem LacksType.crashes (h : LacksType ws opts args) :
    MainEnds ws.system opts args .crash {} := by
  refine ⟨0, fun fuel _ => ?_⟩
  rcases foldlM_mainOption_start opts with ⟨_, hoptions⟩ | ⟨hnot, _⟩
  · cases hread : bufferReadFile (some (mainInput args)) (ws.input (mainInput args)) with
    | none => exact absurd hread h.input
    | some secret =>
        simp only [main, hoptions, Workstation.system, hread, h.untyped]
        rw [if_neg (Nat.not_lt.mpr h.atMost)]
  · exact absurd h.options hnot

/-- A run without a type that crashes has read its input. -/
theorem lacksType_of_crash (htaken : OptionsTaken opts)
    (htype : (mainOptions opts).optType = none)
    (h : MainEnds ws.system opts args .crash run) : LacksType ws opts args := by
  rcases foldlM_mainOption_start opts with ⟨_, hoptions⟩ | ⟨hnot, _⟩
  · refine ⟨htaken, ?_, ?_, htype⟩
    · by_contra hmany
      have hends : MainEnds ws.system opts args (.done 1) {} := by
        refine ⟨0, fun fuel _ => ?_⟩
        simp only [main, hoptions]
        rw [if_pos (Nat.not_le.mp hmany)]
      cases (h.unique hends).1
    · intro hread
      have hends : exists status, MainEnds ws.system opts args (.done status) {} := by
        by_cases hargs : 1 < args.length
        · refine ⟨1, 0, fun fuel _ => ?_⟩
          simp only [main, hoptions]
          rw [if_pos hargs]
        · refine ⟨2, 0, fun fuel _ => ?_⟩
          simp only [main, hoptions, Workstation.system, hread]
          rw [if_neg hargs]
      rcases hends with ⟨status, hends⟩
      cases (h.unique hends).1
  · exact absurd htaken hnot

omit [Usbfs σ] in
theorem LacksType.not_startsDoit (h : LacksType ws opts args) {secret : Buffer}
    {dev : UsbOpened} : ¬ StartsDoit ws opts args secret dev := by
  intro hstarts
  rcases hstarts.opened with ⟨optType, _, htype, _⟩
  rw [h.untyped] at htype
  cases htype

/-!
## Behind it
-/

omit [Usbfs σ] in
theorem StartsDoit.unique {secret secret2 : Buffer} {dev dev2 : UsbOpened}
    (h : StartsDoit ws opts args secret dev) (h2 : StartsDoit ws opts args secret2 dev2) :
    secret = secret2 ∧ dev = dev2 := by
  rcases h.opened with ⟨optType, type, htype, hparse, hopened⟩
  rcases h2.opened with ⟨optType2, type2, htype2, hparse2, hopened2⟩
  rw [htype] at htype2
  cases htype2
  rw [hparse] at hparse2
  cases hparse2
  exact ⟨Option.some.inj (h.input.symm.trans h2.input),
    Option.some.inj (hopened.symm.trans hopened2)⟩

theorem RanDoit.unique {result result2 : Outcome (Option Buffer)}
    (h : RanDoit ws opts args result run) (h2 : RanDoit ws opts args result2 run) :
    result = result2 := by
  rcases h with ⟨secret, dev, t, hstarts, hdoit, _⟩
  rcases h2 with ⟨secret2, dev2, t2, hstarts2, hdoit2, _⟩
  rcases hstarts.unique hstarts2 with ⟨rfl, rfl⟩
  exact congrArg Prod.fst (hdoit.symm.trans hdoit2)

theorem MainEnds.crash_iff (hbus : ws.bus.Readable ws.size)
    (h : MainEnds ws.system opts args outcome run) {result : Outcome (Option Buffer)}
    (hran : RanDoit ws opts args result run) : outcome = .crash ↔ result = .crash := by
  constructor
  · intro hcrash
    cases (h.meets hbus).crashes hcrash with
    | inl huntyped =>
        rw [hcrash] at h
        rcases hran with ⟨_, _, _, hstarts, _, _⟩
        exact absurd hstarts
          (lacksType_of_crash huntyped.1 huntyped.2 h).not_startsDoit
    | inr hran2 => exact hran.unique hran2
  · rintro rfl
    rcases hran with ⟨secret, dev, t, hstarts, hdoit, _⟩
    exact (h.unique (hstarts.mainEnds hbus
      ⟨0, fun fuel _ => mainDecrypt_other hdoit (fun _ hbad => by cases hbad) fuel⟩)).1

/-- A file that has been read is too short for an endless dump. -/
theorem RanDoit.ends {result : Outcome (Option Buffer)}
    (h : RanDoit ws opts args result run) : result ≠ .hang := by
  rcases h with ⟨secret, dev, t, hstarts, hdoit, _⟩
  rcases bufferReadFile_some hstarts.input with ⟨stSize, _, _, hlength, hlt, hwf⟩
  intro hhang
  have houtcome := congrArg Prod.fst hdoit
  rw [hhang] at houtcome
  have hendless := ((doit_hang_iff (mainOptions opts).optPin secret (mainOptions opts).cardopts
    (mainHost ws.system (mainOptions opts) dev)).mp houtcome).2.2
  have hlong : 2 ^ 32 - 32 < bufferAvailable secret := hendless.1
  rw [bufferAvailable_eq hwf] at hlong
  lia

/-- The record of a run begins with `doit`. -/
theorem RanDoit.crash_iff {result : Outcome (Option Buffer)}
    (h : RanDoit ws opts args result run) : result = .crash ↔ SentTruncated run := by
  have hends := h.ends
  rcases h with ⟨secret, dev, t, hstarts, hdoit, hhost⟩
  have hwf : secret.Wf := (bufferReadFile_some hstarts.input).choose_spec.2.2.2.2
  have hcrashes := crashesOnPacket_doit (mainOptions opts).optPin hwf
    (mainOptions opts).cardopts (mainHost ws.system (mainOptions opts) dev)
  change mainDoit ws opts secret dev = _ at hdoit
  rw [← mainDoit, hdoit] at hcrashes
  rcases hcrashes with ⟨events, hevents, hcrash⟩
  have hlog : t.log = events := hevents
  refine (hcrash hends).trans ⟨?_, ?_⟩
  · rintro ⟨event, hmem, htruncated⟩
    exact ⟨t, event, hhost, by rw [hlog]; exact hmem, htruncated⟩
  · rintro ⟨u, event, hu, hmem, htruncated⟩
    cases hhost.symm.trans hu
    rw [hlog] at hmem
    exact ⟨event, hmem, htruncated⟩

theorem MainEnds.fails (hbus : ws.bus.Readable ws.size)
    (h : MainEnds ws.system opts args outcome run) : MainFails ws opts args outcome run := by
  have hmeets := h.meets hbus
  refine ⟨fun hhang => (hmeets.hangs hhang).ends rfl, ?_⟩
  by_cases hhost : run.host = none
  · have hnone : ¬ SentTruncated run := by
      rintro ⟨t, _, hsome, _⟩
      rw [hhost] at hsome
      cases hsome
    constructor
    · intro hcrash
      cases hmeets.crashes hcrash with
      | inl huntyped =>
          rw [hcrash] at h
          exact Or.inl (lacksType_of_crash huntyped.1 huntyped.2 h)
      | inr hran =>
          rcases hran with ⟨_, _, t, _, _, hsome⟩
          rw [hhost] at hsome
          cases hsome
    · rintro (hlacks | hsent)
      · exact (h.unique hlacks.crashes).1
      · exact absurd hsent hnone
  · rcases hmeets.device hhost with ⟨result, hran⟩
    refine (h.crash_iff hbus hran).trans (hran.crash_iff.trans ⟨Or.inr, ?_⟩)
    rintro (hlacks | hsent)
    · rcases hran with ⟨_, _, _, hstarts, _, _⟩
      exact absurd hstarts hlacks.not_startsDoit
    · exact hsent

end

end UtokenDecrypt
