import ArrayBridge.Proofs.Session

/-!
The settings of a session over a run of calls. The engine is told only what a call changes, so that it has the
settings of the session only because it had them before: the invariant is carried from call to call. A statement can
set the time to wait by itself, and then the engine has another one than the session.
-/
namespace ArrayBridge

namespace Config

/-- The limits that a configuration keeps. -/
structure Valid (c : Config) : Prop where
  blob : c.maxBlobSize ≤ 0x7FFFFFFF
  timeout : c.busyTimeout ≤ 0x7FFFFFFF

/-- What is said of a configuration that does not keep them. -/
inductive Faulty (c : Config) : ConfigFault → Prop
  | blob : 0x7FFFFFFF < c.maxBlobSize → Faulty c (.blobLimit c.maxBlobSize)
  | timeout : c.maxBlobSize ≤ 0x7FFFFFFF → 0x7FFFFFFF < c.busyTimeout → Faulty c (.timeoutRange c.busyTimeout)

variable {c : Config} {f : ConfigFault} {millis : Nat}

theorem Valid.fault?_eq (h : c.Valid) : c.fault? = none :=
  (if_neg (Nat.not_lt.mpr h.blob)).trans (if_neg (Nat.not_lt.mpr h.timeout))

theorem Faulty.fault?_eq (h : c.Faulty f) : c.fault? = some f := by
  cases h with
  | blob hblob => exact if_pos hblob
  | timeout hblob htimeout => exact (if_neg (Nat.not_lt.mpr hblob)).trans (if_pos htimeout)

theorem valid_or_faulty (c : Config) : c.Valid ∨ ∃ f, c.Faulty f := by
  rcases Nat.lt_or_ge 0x7FFFFFFF c.maxBlobSize with hblob | hblob
  · exact .inr ⟨_, .blob hblob⟩
  · rcases Nat.lt_or_ge 0x7FFFFFFF c.busyTimeout with htimeout | htimeout
    · exact .inr ⟨_, .timeout hblob htimeout⟩
    · exact .inl ⟨hblob, htimeout⟩

theorem Valid.withTimeout (h : c.Valid) (hmillis : millis ≤ 0x7FFFFFFF) :
    Valid { c with busyTimeout := millis } := ⟨h.blob, hmillis⟩

theorem Valid.faulty_withTimeout (h : c.Valid) (hmillis : 0x7FFFFFFF < millis) :
    Faulty { c with busyTimeout := millis } (.timeoutRange millis) := .timeout h.blob hmillis

end Config

namespace Session

variable {σ ρ : Type} {E : Engine σ ρ} {timeout : σ → Nat} {mode : σ → Charset} {s t : Session σ} {config : Config}
  {opened : σ} {millis : Nat}

theorem checkConfig_of_faulty {f : ConfigFault} (h : config.Faulty f) : checkConfig config = .error (.config f) := by
  rw [checkConfig, h.fault?_eq]

theorem checkConfig_of_valid (h : config.Valid) : checkConfig config = .ok () := by
  rw [checkConfig, h.fault?_eq]

theorem checkConfig_eq_ok_iff : checkConfig config = .ok () ↔ config.Valid := by
  refine ⟨fun h => ?_, checkConfig_of_valid⟩
  rcases config.valid_or_faulty with hvalid | ⟨f, hfaulty⟩
  · exact hvalid
  · rw [checkConfig_of_faulty hfaulty] at h
    cases h

theorem run_checkConfig (h : config.Valid) (s : Session σ) :
    (MonadExcept.ofExcept (checkConfig config) : Change σ Unit).run.run s = (.ok (), s) := by
  rw [Stateful.run_ofExcept, checkConfig_of_valid h]

/-! What the engine is asked for when settings change. -/

theorem run_setTimeout (hE : E.Adjustable timeout mode) (h : millis ≤ 0x7FFFFFFF) (s : Session σ) :
    ∃ engine, (ask (E.setTimeout millis)).run.run s = (.ok (), { s with engine }) ∧ timeout engine = millis ∧
      mode engine = mode s.engine := by
  have hok : E.setTimeout millis s.engine = (.ok (), (E.setTimeout millis s.engine).2) :=
    Prod.ext (hE.setTimeout_ok millis s.engine h) rfl
  exact ⟨_, run_ask hok, hE.timeout_setTimeout millis s.engine h, hE.mode_setTimeout millis s.engine⟩

theorem run_register (hE : E.Adjustable timeout mode) (charset : Charset) (s : Session σ) :
    ∃ engine, (ask (E.register charset)).run.run s = (.ok (), { s with engine }) ∧ timeout engine = timeout s.engine ∧
      mode engine = charset := by
  have hok : E.register charset s.engine = (.ok (), (E.register charset s.engine).2) :=
    Prod.ext (hE.register_ok charset s.engine) rfl
  exact ⟨_, run_ask hok, hE.timeout_register charset s.engine, hE.mode_register charset s.engine⟩

/-- The configuration is valid, and the functions of the engine are those for its charset. -/
structure InForce (mode : σ → Charset) (s : Session σ) : Prop where
  valid : s.config.Valid
  charset : mode s.engine = s.config.charset

/-- The engine waits as long as the configuration says. -/
def InTime (timeout : σ → Nat) (s : Session σ) : Prop := timeout s.engine = s.config.busyTimeout

theorem connect_of_faulty {f : ConfigFault} (h : config.Faulty f) :
    connect E opened config = .error (.config f) := by
  rw [connect, changed, Change.runOn, Stateful.run_bind, Stateful.run_ofExcept, checkConfig_of_faulty h]
  rfl

theorem connect_of_valid (hE : E.Adjustable timeout mode) (opened : σ) (h : config.Valid) :
    ∃ s, connect E opened config = .ok s ∧ s.config = config ∧ InForce mode s ∧ InTime timeout s := by
  obtain ⟨timed, htimed, htimeout, -⟩ := run_setTimeout hE h.timeout ⟨opened, config⟩
  obtain ⟨engine, hregister, hsame, hmode⟩ := run_register hE config.charset ⟨timed, config⟩
  refine ⟨⟨engine, config⟩, ?_, rfl, ⟨h, hmode⟩, hsame.trans htimeout⟩
  rw [connect, changed, Change.runOn, Stateful.run_bind_of_ok (run_checkConfig h _), Stateful.run_bind_of_ok htimed,
    hregister]
  rfl

theorem connect_eq_ok (hE : E.Adjustable timeout mode) (h : connect E opened config = .ok s) :
    s.config = config ∧ InForce mode s ∧ InTime timeout s := by
  rcases config.valid_or_faulty with hvalid | ⟨f, hfaulty⟩
  · obtain ⟨s', hs', hconfig, hforce, htime⟩ := connect_of_valid hE opened hvalid
    cases h.symm.trans hs'
    exact ⟨hconfig, hforce, htime⟩
  · rw [connect_of_faulty hfaulty] at h
    cases h

theorem runOn_configure_of_faulty {f : ConfigFault} (h : config.Faulty f) :
    (configure E config).runOn s = (.error (.config f), s) := by
  rw [Change.runOn, configure, Stateful.run_bind, Stateful.run_ofExcept, checkConfig_of_faulty h]

/-- The engine keeps the time to wait that it has if the session had the new one before. -/
theorem run_tell_setTimeout (hE : E.Adjustable timeout mode) (h : millis ≤ 0x7FFFFFFF) (old : Nat) (s : Session σ) :
    ∃ engine, (tell E.setTimeout old millis).run.run s = (.ok (), { s with engine }) ∧
      timeout engine = (if millis = old then timeout s.engine else millis) ∧ mode engine = mode s.engine := by
  rw [tell]
  by_cases hnew : millis = old
  · rw [if_neg (not_not.mpr hnew), if_pos hnew]
    exact ⟨s.engine, rfl, rfl, rfl⟩
  · rw [if_pos hnew, if_neg hnew]
    exact run_setTimeout hE h s

theorem run_tell_register (hE : E.Adjustable timeout mode) (charset : Charset) (hs : InForce mode s) {engine : σ}
    (hmode : mode engine = mode s.engine) :
    ∃ engine', (tell E.register s.config.charset charset).run.run { s with engine } = (.ok (), { s with engine := engine' }) ∧
      timeout engine' = timeout engine ∧ mode engine' = charset := by
  rw [tell]
  by_cases hnew : charset = s.config.charset
  · rw [if_neg (not_not.mpr hnew)]
    exact ⟨engine, rfl, rfl, (hmode.trans hs.charset).trans hnew.symm⟩
  · rw [if_pos hnew]
    exact run_register hE charset { s with engine }

/-- The engine need not be told of a charset for which it has the functions already. -/
theorem InForce.runOn_configure (hE : E.Adjustable timeout mode) (hs : InForce mode s) (h : config.Valid) :
    ∃ engine, (configure E config).runOn s = (.ok (), ⟨engine, config⟩) ∧
      timeout engine = (if config.busyTimeout = s.config.busyTimeout then timeout s.engine else config.busyTimeout) ∧
      mode engine = config.charset := by
  obtain ⟨timed, htimed, htimeout, hsame⟩ := run_tell_setTimeout hE h.timeout s.config.busyTimeout s
  obtain ⟨engine, hregister, hkept, hmode⟩ := run_tell_register hE config.charset hs hsame
  refine ⟨engine, ?_, hkept.trans htimeout, hmode⟩
  rw [Change.runOn, configure, Stateful.run_bind_of_ok (run_checkConfig h s), Stateful.run_get_bind,
    Stateful.run_bind_of_ok htimed, Stateful.run_bind_of_ok hregister]
  rfl

/-- A statement changes neither the configuration nor the functions. -/
theorem query_frame (hE : E.Adjustable timeout mode) (s : Session σ) (sql : String) (args : List HostValue) :
    (s.query E sql args).2.config = s.config ∧ mode (s.query E sql args).2.engine = mode s.engine := by
  obtain ⟨r, t, h⟩ := exists_answered E s sql args
  have hmode := hE.mode_prepare (Sql.expand sql) s.engine
  rw [h.query_eq]
  cases h with
  | unprepared hprepare =>
      rw [hprepare] at hmode
      exact ⟨rfl, hmode⟩
  | unbound hprepare hfill =>
      rw [hprepare] at hmode
      exact ⟨rfl, hmode⟩
  | @stepped p prepared engine n held stepping hprepare hfill hstep =>
      have hsame := hE.mode_step p (held.map Cell.bound) prepared
      rw [hprepare] at hmode
      rw [hstep] at hsame
      exact ⟨rfl, hsame.trans hmode⟩

theorem queryChars_frame (hE : E.Adjustable timeout mode) (s : Session σ) (sql : Bytes) (args : List HostValue) :
    (s.queryChars E sql args).2.config = s.config ∧ mode (s.queryChars E sql args).2.engine = mode s.engine := by
  rw [queryChars]
  split
  · exact ⟨rfl, rfl⟩
  · exact query_frame hE s _ args

/-- A call on an open session. -/
inductive Call
  | configure (config : Config)
  | configureTimeout (millis : Nat)
  | query (sql : String) (args : List HostValue)
  | queryChars (sql : Bytes) (args : List HostValue)

namespace Call

/-- Whether a call ended in an error, and the session after it. -/
def runOn (E : Engine σ ρ) (s : Session σ) : Call → Except BridgeError Unit × Session σ
  | .configure config => (Session.configure E config).runOn s
  | .configureTimeout millis => (Session.configureTimeout E millis).runOn s
  | .query sql args => let r := s.query E sql args; (r.1.map fun _ => (), r.2)
  | .queryChars sql args => let r := s.queryChars E sql args; (r.1.map fun _ => (), r.2)

/-- It is no statement that gives the engine another time to wait. -/
def Steady (E : Engine σ ρ) (timeout : σ → Nat) (s : Session σ) : Call → Prop
  | .configure _ | .configureTimeout _ => True
  | .query sql args => timeout (s.query E sql args).2.engine = timeout s.engine
  | .queryChars sql args => timeout (s.queryChars E sql args).2.engine = timeout s.engine

instance (call : Call) : Decidable (call.Steady E timeout s) :=
  match call with
  | .configure _ | .configureTimeout _ => isTrue trivial
  | .query _ _ | .queryChars _ _ => Nat.decEq _ _

end Call

/-- The session after a run of calls. -/
def after (E : Engine σ ρ) (s : Session σ) (calls : List Call) : Session σ :=
  calls.foldl (fun s call => (call.runOn E s).2) s

/-- No call of a run is a statement that gives the engine another time to wait. -/
def Steady (E : Engine σ ρ) (timeout : σ → Nat) : Session σ → List Call → Prop
  | _, [] => True
  | s, call :: calls => call.Steady E timeout s ∧ Steady E timeout (call.runOn E s).2 calls

def decideSteady (E : Engine σ ρ) (timeout : σ → Nat) :
    (s : Session σ) → (calls : List Call) → Decidable (Steady E timeout s calls)
  | _, [] => isTrue trivial
  | s, call :: calls =>
    have := decideSteady E timeout (call.runOn E s).2 calls
    inferInstanceAs (Decidable (call.Steady E timeout s ∧ Steady E timeout (call.runOn E s).2 calls))

instance (calls : List Call) : Decidable (Steady E timeout s calls) := decideSteady E timeout s calls

/-- All that calls see of the settings: those of the session, and those of its engine. -/
def settings (timeout : σ → Nat) (mode : σ → Charset) (s : Session σ) : Config × Nat × Charset :=
  (s.config, timeout s.engine, mode s.engine)

/-- What a call comes to, and the session after it. Of a new time to wait the engine is told if it is new to the
session. -/
inductive Led (E : Engine σ ρ) (timeout : σ → Nat) (mode : σ → Charset) (s : Session σ) :
    Call → Except BridgeError Unit → Session σ → Prop
  | refused {config : Config} {f : ConfigFault} : config.Faulty f →
      Led E timeout mode s (.configure config) (.error (.config f)) s
  | configured {config : Config} {t : Session σ} : config.Valid → t.settings timeout mode =
        (config, if config.busyTimeout = s.config.busyTimeout then timeout s.engine else config.busyTimeout,
          config.charset) →
      Led E timeout mode s (.configure config) (.ok ()) t
  | late {millis : Nat} : 0x7FFFFFFF < millis →
      Led E timeout mode s (.configureTimeout millis) (.error (.config (.timeoutRange millis))) s
  | timed {millis : Nat} {t : Session σ} : millis ≤ 0x7FFFFFFF → t.settings timeout mode =
        ({ s.config with busyTimeout := millis },
          if millis = s.config.busyTimeout then timeout s.engine else millis, mode s.engine) →
      Led E timeout mode s (.configureTimeout millis) (.ok ()) t
  | queried {sql : String} {args : List HostValue} {r : Except BridgeError QueryResult} {t : Session σ} :
      s.query E sql args = (r, t) → t.config = s.config → mode t.engine = mode s.engine →
      Led E timeout mode s (.query sql args) (r.map fun _ => ()) t
  | queriedChars {sql : Bytes} {args : List HostValue} {r : Except BridgeError QueryResult} {t : Session σ} :
      s.queryChars E sql args = (r, t) → t.config = s.config → mode t.engine = mode s.engine →
      Led E timeout mode s (.queryChars sql args) (r.map fun _ => ()) t

variable {call : Call} {r : Except BridgeError Unit}

theorem InForce.exists_led (hE : E.Adjustable timeout mode) (hs : InForce mode s) (call : Call) :
    ∃ r t, Led E timeout mode s call r t ∧ call.runOn E s = (r, t) := by
  cases call with
  | configure config =>
      rcases config.valid_or_faulty with hvalid | ⟨f, hfaulty⟩
      · obtain ⟨engine, hrun, htimeout, hmode⟩ := hs.runOn_configure hE hvalid
        exact ⟨_, _, .configured hvalid (by rw [settings, htimeout, hmode]), hrun⟩
      · exact ⟨_, _, .refused hfaulty, runOn_configure_of_faulty hfaulty⟩
  | configureTimeout millis =>
      by_cases hmillis : millis ≤ 0x7FFFFFFF
      · obtain ⟨engine, hrun, htimeout, hmode⟩ := hs.runOn_configure hE (hs.valid.withTimeout hmillis)
        have hcharset : mode engine = mode s.engine := hmode.trans hs.charset.symm
        exact ⟨_, _, .timed hmillis (by rw [settings, htimeout, hcharset]), hrun⟩
      · have hlate := Nat.lt_of_not_le hmillis
        exact ⟨_, _, .late hlate, runOn_configure_of_faulty (hs.valid.faulty_withTimeout hlate)⟩
  | query sql args =>
      obtain ⟨hconfig, hmode⟩ := query_frame hE s sql args
      exact ⟨_, _, .queried rfl hconfig hmode, rfl⟩
  | queryChars sql args =>
      obtain ⟨hconfig, hmode⟩ := queryChars_frame hE s sql args
      exact ⟨_, _, .queriedChars rfl hconfig hmode, rfl⟩

theorem InForce.led (hE : E.Adjustable timeout mode) (hs : InForce mode s) (h : call.runOn E s = (r, t)) :
    Led E timeout mode s call r t := by
  obtain ⟨r₁, t₁, hled, hrun⟩ := hs.exists_led hE call
  cases h.symm.trans hrun
  exact hled

theorem Led.inForce (h : Led E timeout mode s call r t) (hs : InForce mode s) : InForce mode t := by
  cases h with
  | refused hfaulty => exact hs
  | configured hvalid hsettings =>
      obtain ⟨hconfig, -, hmode⟩ : _ ∧ _ ∧ _ := by simpa only [settings, Prod.mk.injEq] using hsettings
      exact ⟨hconfig ▸ hvalid, by rw [hmode, hconfig]⟩
  | late hlate => exact hs
  | timed hmillis hsettings =>
      obtain ⟨hconfig, -, hmode⟩ : _ ∧ _ ∧ _ := by simpa only [settings, Prod.mk.injEq] using hsettings
      refine ⟨hconfig ▸ hs.valid.withTimeout hmillis, ?_⟩
      rw [hmode, hconfig]
      exact hs.charset
  | queried hquery hconfig hmode => exact ⟨hconfig ▸ hs.valid, by rw [hmode, hconfig, hs.charset]⟩
  | queriedChars hquery hconfig hmode => exact ⟨hconfig ▸ hs.valid, by rw [hmode, hconfig, hs.charset]⟩

theorem ite_eq_of_inTime (h : InTime timeout s) (new : Nat) :
    (if new = s.config.busyTimeout then timeout s.engine else new) = new :=
  ite_eq_right_iff.mpr fun hsame => h.trans hsame.symm

theorem Led.inTime (h : Led E timeout mode s call r t) (hs : InTime timeout s) (hsteady : call.Steady E timeout s) :
    InTime timeout t := by
  cases h with
  | refused hfaulty => exact hs
  | configured hvalid hsettings =>
      obtain ⟨hconfig, htimeout, -⟩ : _ ∧ _ ∧ _ := by simpa only [settings, Prod.mk.injEq] using hsettings
      rw [InTime, htimeout, hconfig, ite_eq_of_inTime hs]
  | late hlate => exact hs
  | timed hmillis hsettings =>
      obtain ⟨hconfig, htimeout, -⟩ : _ ∧ _ ∧ _ := by simpa only [settings, Prod.mk.injEq] using hsettings
      rw [InTime, htimeout, hconfig, ite_eq_of_inTime hs]
  | queried hquery hconfig hmode =>
      rw [Call.Steady, hquery] at hsteady
      exact hsteady.trans (hs.trans (congrArg Config.busyTimeout hconfig.symm))
  | queriedChars hquery hconfig hmode =>
      rw [Call.Steady, hquery] at hsteady
      exact hsteady.trans (hs.trans (congrArg Config.busyTimeout hconfig.symm))

theorem Led.settings_eq {e : BridgeError} (h : Led E timeout mode s call (.error e) t)
    (hsteady : call.Steady E timeout s) : t.settings timeout mode = s.settings timeout mode := by
  generalize hr : (Except.error e : Except BridgeError Unit) = r at h
  cases h with
  | refused hfaulty => rfl
  | configured hvalid hsettings => cases hr
  | late hlate => rfl
  | timed hmillis hsettings => cases hr
  | queried hquery hconfig hmode =>
      rw [Call.Steady, hquery] at hsteady
      rw [settings, settings, hsteady, hconfig, hmode]
  | queriedChars hquery hconfig hmode =>
      rw [Call.Steady, hquery] at hsteady
      rw [settings, settings, hsteady, hconfig, hmode]

theorem InForce.after (hE : E.Adjustable timeout mode) (hs : InForce mode s) (calls : List Call) :
    InForce mode (s.after E calls) := by
  induction calls generalizing s with
  | nil => exact hs
  | cons call calls ih =>
      obtain ⟨r, t, hled, hrun⟩ := hs.exists_led hE call
      rw [Session.after, List.foldl_cons, hrun]
      exact ih (hled.inForce hs)

theorem InForce.inTime_after (hE : E.Adjustable timeout mode) (hs : InForce mode s) (htime : InTime timeout s)
    {calls : List Call} (hsteady : Steady E timeout s calls) : InTime timeout (s.after E calls) := by
  induction calls generalizing s with
  | nil => exact htime
  | cons call calls ih =>
      obtain ⟨r, t, hled, hrun⟩ := hs.exists_led hE call
      obtain ⟨hcall, hcalls⟩ := hsteady
      rw [hrun] at hcalls
      rw [Session.after, List.foldl_cons, hrun]
      exact ih (hled.inForce hs) (hled.inTime htime hcall) hcalls

/-- A session opens with a valid configuration and with no other. After every run of calls the configuration is
valid and the engine has the functions for its charset, and it waits as long as the configuration says unless a
statement of the run has set another time. Every call after that leads where it should; one that ends in an error leaves
the settings as they were, but for such a statement. -/
theorem settings_exact (hE : E.Adjustable timeout mode) (opened : σ) (config : Config) :
    (checkConfig config = .ok () ↔ config.Valid) ∧
      ((∃ s, connect E opened config = .ok s) ↔ config.Valid) ∧
      ∀ s, connect E opened config = .ok s → s.config = config ∧ ∀ calls : List Call,
        InForce mode (s.after E calls) ∧
        (Steady E timeout s calls → InTime timeout (s.after E calls)) ∧
        ∀ call r t, call.runOn E (s.after E calls) = (r, t) →
          Led E timeout mode (s.after E calls) call r t ∧
          ∀ e, r = .error e → call.Steady E timeout (s.after E calls) →
            t.settings timeout mode = (s.after E calls).settings timeout mode := by
  refine ⟨checkConfig_eq_ok_iff, ⟨?_, fun h => ?_⟩, fun s hs => ?_⟩
  · rintro ⟨s, hs⟩
    obtain ⟨rfl, hforce, -⟩ := connect_eq_ok hE hs
    exact hforce.valid
  · obtain ⟨s, hs, -⟩ := connect_of_valid hE opened h
    exact ⟨s, hs⟩
  · obtain ⟨hconfig, hforce, htime⟩ := connect_eq_ok hE hs
    refine ⟨hconfig, fun calls => ⟨hforce.after hE calls, hforce.inTime_after hE htime, fun call r t hrun => ?_⟩⟩
    have hled := (hforce.after hE calls).led hE hrun
    refine ⟨hled, ?_⟩
    rintro e rfl
    exact hled.settings_eq

/-- The charset is switched off, the time to wait is asked for, and one beyond the limit is refused. -/
theorem settings_exact_switched :
    ∃ s, connect Sql.engine (.opened {}) {} = .ok s ∧
      InTime Sql.State.busyTimeout (s.after Sql.engine [.configure { convertUtf8 := false },
        .query "PRAGMA busy_timeout" [], .configureTimeout 0x80000000]) ∧
      ∀ r t, Call.runOn Sql.engine (s.after Sql.engine [.configure { convertUtf8 := false },
          .query "PRAGMA busy_timeout" [], .configureTimeout 0x80000000]) (.configure {}) = (r, t) →
        r = .ok () ∧ t.settings Sql.State.busyTimeout Sql.State.functionMode = ({}, 1000, .convert) := by
  have hopen : connect Sql.engine (.opened {}) {} = .ok ⟨⟨{}, 1000, .convert⟩, {}⟩ := by decide
  have hsteady : Steady Sql.engine Sql.State.busyTimeout ⟨⟨{}, 1000, .convert⟩, {}⟩
      [.configure { convertUtf8 := false }, .query "PRAGMA busy_timeout" [], .configureTimeout 0x80000000] := by
    decide +kernel
  obtain ⟨-, hruns⟩ := (settings_exact Sql.engine_adjustable (.opened {}) {}).2.2 _ hopen
  obtain ⟨-, htime, hnext⟩ := hruns
    [.configure { convertUtf8 := false }, .query "PRAGMA busy_timeout" [], .configureTimeout 0x80000000]
  refine ⟨_, hopen, htime hsteady, fun r t hrun => ?_⟩
  have hafter : (Session.mk (⟨{}, 1000, .convert⟩ : Sql.State) {}).after Sql.engine
      [.configure { convertUtf8 := false }, .query "PRAGMA busy_timeout" [], .configureTimeout 0x80000000] =
        ⟨⟨{}, 1000, .identity⟩, { convertUtf8 := false }⟩ := by decide +kernel
  have hled := (hnext _ r t hrun).1
  rw [hafter] at hled
  cases hled with
  | refused hfaulty =>
      cases hfaulty with
      | blob hblob => exact absurd hblob (by decide)
      | timeout _ htimeout => exact absurd htimeout (by decide)
  | configured hvalid hsettings => exact ⟨rfl, hsettings⟩

/-- A statement gives the engine another time to wait, of which the session does not hear. -/
theorem pragma_out_of_time :
    ∃ s, connect Sql.engine (.opened {}) {} = .ok s ∧
      (s.query Sql.engine "PRAGMA busy_timeout = 5" []).2.engine.busyTimeout = 5 ∧
      (s.query Sql.engine "PRAGMA busy_timeout = 5" []).2.config.busyTimeout = 1000 ∧
      ¬InTime Sql.State.busyTimeout (s.after Sql.engine [.query "PRAGMA busy_timeout = 5" []]) := by
  have hopen : connect Sql.engine (.opened {}) {} = .ok ⟨⟨{}, 1000, .convert⟩, {}⟩ := by decide
  have hengine : ((Session.mk (⟨{}, 1000, .convert⟩ : Sql.State) {}).query Sql.engine "PRAGMA busy_timeout = 5"
      []).2.engine.busyTimeout = 5 := by decide +kernel
  have hconfig : ((Session.mk (⟨{}, 1000, .convert⟩ : Sql.State) {}).query Sql.engine "PRAGMA busy_timeout = 5"
      []).2.config.busyTimeout = 1000 := by decide +kernel
  refine ⟨_, hopen, hengine, hconfig, fun htime => ?_⟩
  cases hengine.symm.trans (Eq.trans htime hconfig)

end Session

end ArrayBridge
