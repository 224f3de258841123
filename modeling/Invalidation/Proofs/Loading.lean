import Invalidation.Settings.Files
import Invalidation.Settings.Build
import Invalidation.Proofs.Sound

namespace Invalidation

-- A loading computation ends, from any lines logged before it, with a result that meets `ok` or a
-- fault that meets `bad`.
def Loading.Ends {α : Type} (m : Loading α) (ok : α → Prop) (bad : Fault → Prop) : Prop :=
  ∀ logs, match (m.run.run logs).1 with
    | .ok a => ok a
    | .error f => bad f

namespace Loading

variable {α β : Type} {ok : α → Prop} {bad : Fault → Prop}

theorem ends_pure {a : α} (h : ok a) : (pure a : Loading α).Ends ok bad := fun _ => h

theorem ends_throw {f : Fault} (h : bad f) : (throw f : Loading α).Ends ok bad := fun _ => h

theorem ends_bind {m : Loading α} {k : α → Loading β} {mid : α → Prop} {fin : β → Prop}
    (hm : m.Ends mid bad) (hk : ∀ a, mid a → (k a).Ends fin bad) : (m >>= k).Ends fin bad := by
  intro logs
  have h := hm logs
  simp only [ExceptT.run_bind, StateT.run_bind]
  revert h
  cases (m.run.run logs) with
  | mk r logs' =>
    cases r with
    | ok a => exact fun h => hk a h logs'
    | error f => exact id

theorem ends_lift {x : Except Fault α} (hok : ∀ a, x = .ok a → ok a)
    (hbad : ∀ f, x = .error f → bad f) : (lift x).Ends ok bad := by
  intro logs
  cases x with
  | ok a => exact hok a rfl
  | error f => exact hbad f rfl

theorem ends_log {l : LogLine} : (log l).Ends (fun _ => True) bad := fun _ => trivial

theorem ends_lift_bind {x : Except Fault α} {a : α} {k : α → Loading β} {fin : β → Prop}
    (hx : x = .ok a) (hk : (k a).Ends fin bad) : (lift x >>= k).Ends fin bad := by
  subst hx
  exact hk

theorem Ends.mono {m : Loading α} {ok' : α → Prop} {bad' : Fault → Prop} (h : m.Ends ok bad)
    (hok : ∀ a, ok a → ok' a) (hbad : ∀ f, bad f → bad' f) : m.Ends ok' bad' := by
  intro logs
  have h := h logs
  revert h
  cases (m.run.run logs).1 with
  | ok a => exact hok a
  | error f => exact hbad f

end Loading

-- A configuration fault, the kind of fault settings are refused with.
def Fault.IsConfiguration (f : Fault) : Prop := ∃ p, f = .configuration p

-- A fault converting a setting may give: a configuration fault, or an infinite number made an
-- integer, which the conversion lets through.
def Fault.OfSetting (f : Fault) : Prop := f.IsConfiguration ∨ f = .host .infinityToInt

-- An integer conversion fails with a configuration fault, or with the infinity fault on an
-- infinite double.
theorem toIntSetting_error_cases {g k : String} {v : Json} {f : Fault} (h : toIntSetting g k v = .error f) :
    f.IsConfiguration ∨
      f = .host .infinityToInt ∧ ∃ x neg, v = .float x ∧ Decimal.Binary.ofFloat x = .infinite neg := by
  unfold toIntSetting at h
  repeat' split at h
  -- each failure is a refusal with a configuration fault, but the one on an infinite double
  all_goals cases h
  all_goals simp_all [Fault.IsConfiguration]

theorem toIntSetting_error {g k : String} {v : Json} {f : Fault} (h : toIntSetting g k v = .error f) :
    f.OfSetting := by
  rcases toIntSetting_error_cases h with hc | ⟨rfl, -⟩
  · exact .inl hc
  · exact .inr rfl

-- A setting fails only by refusing a null, or by failing to convert to an integer.
theorem Settings.set_error_cases {s : Settings} {g k : String} {fld : Field} {v : Json} {f : Fault}
    (h : s.set g k fld v = .error f) :
    f.IsConfiguration ∨ fld.kind = .int ∧ toIntSetting g k v = .error f := by
  unfold Settings.set at h
  cases fld <;> simp [Field.nullable, Field.kind, bind, Except.bind, pure, Except.pure, throw, throwThe,
      MonadExceptOf.throw] at h ⊢
  all_goals
    split at h
    · -- a null is refused with a configuration fault, unless the setting may be null
      cases h
      all_goals simp [Fault.IsConfiguration]
    · -- anything else is set, converted first for an integer setting
      cases hc : toIntSetting g k v <;> simp [hc] at h
      all_goals exact .inr (by rw [h])

theorem Settings.set_error {s : Settings} {g k : String} {fld : Field} {v : Json} {f : Fault}
    (h : s.set g k fld v = .error f) : f.OfSetting := by
  rcases set_error_cases h with hc | ⟨-, hint⟩
  · exact .inl hc
  · exact toIntSetting_error hint

theorem Settings.setGroup_ends (group : String) (s : Settings) (ms : List (Text × Json)) :
    (s.setGroup group ms).Ends (fun _ => True) Fault.OfSetting := by
  induction ms generalizing s with
  | nil => exact Loading.ends_pure trivial
  | cons m ms ih =>
    obtain ⟨key, v⟩ := m
    unfold Settings.setGroup
    split
    case h_1 k fld _ _ =>
      exact Loading.ends_bind (Loading.ends_lift (fun _ _ => trivial) fun f h => Settings.set_error h)
        fun s' _ => ih s'
    case h_2 => exact Loading.ends_bind Loading.ends_log fun _ _ => ih s

-- Settings either fail their checks with a configuration fault, or pass them all.
theorem Settings.validate_cases (s : Settings) :
    (∃ p, s.validate = .error (.configuration p)) ∨
      s.validate = .ok () ∧ 0 ≤ s.registry.traceLevel ∧
        (∀ m, s.registry.maxDepth = some m → 0 ≤ m) ∧ 1 ≤ s.registry.journalSize ∧
          isLevelName s.logging.level = true := by
  unfold Settings.validate
  by_cases h1 : s.registry.traceLevel < 0
  · simp [h1, bind, Except.bind, throw, throwThe, MonadExceptOf.throw]
  cases hm : s.registry.maxDepth with
  | none =>
    by_cases h3 : s.registry.journalSize < 1
    · simp [h1, hm, h3, bind, Except.bind, throw, throwThe, MonadExceptOf.throw]
    · cases h4 : isLevelName s.logging.level
      · simp [h1, hm, h3, throw, throwThe, MonadExceptOf.throw]
      · simp [h1, hm, h3, pure, Except.pure]
        omega
  | some m =>
    by_cases h2 : m < 0
    · simp [h1, hm, h2, bind, Except.bind, throw, throwThe, MonadExceptOf.throw]
    by_cases h3 : s.registry.journalSize < 1
    · simp [h1, hm, h2, h3, bind, Except.bind, throw, throwThe, MonadExceptOf.throw]
    · cases h4 : isLevelName s.logging.level
      · simp [h1, hm, h2, h3, throw, throwThe, MonadExceptOf.throw]
      · simp [h1, hm, h2, h3, pure, Except.pure]
        omega

theorem Settings.validate_error {s : Settings} {f : Fault} (h : s.validate = .error f) :
    f.IsConfiguration := by
  rcases s.validate_cases with ⟨p, hp⟩ | ⟨hok, -⟩
  · rw [hp] at h
    cases h
    exact ⟨p, rfl⟩
  · rw [hok] at h
    cases h

-- Checked settings give a limit and a trace level that are not below zero, which a registry takes.
theorem Settings.new_ok {s : Settings} (sc : Scheme) (hv : s.validate = .ok ()) (j : Option Journal) :
    ∃ reg, Registry.new sc (s.registry.maxDepth.map .int) (.int s.registry.traceLevel) j = .ok reg := by
  obtain ⟨p, hp⟩ | ⟨-, htrace, hdepth, -⟩ := s.validate_cases
  · rw [hp] at hv
    cases hv
  have hcheck : Registry.checkMaxDepth (s.registry.maxDepth.map .int) = .ok () := by
    cases hm : s.registry.maxDepth with
    | none => rfl
    | some m =>
      have hrel : Json.relate .lt (.int m) (.int 0) = .ok false :=
        Json.relate_lt_int_eq_false.2 (hdepth m hm)
      simp [Registry.checkMaxDepth, hrel, bind, Except.bind, pure, Except.pure]
  have htr : Json.relate .lt (.int s.registry.traceLevel) (.int 0) = .ok false :=
    Json.relate_lt_int_eq_false.2 htrace
  simp [Registry.new, hcheck, Registry.checkTrace, htr, bind, Except.bind, pure, Except.pure]

-- A registry is built from checked settings unless a journal is asked for with a capacity
-- beyond the machine's sizes.
theorem Settings.build_ends {s : Settings} (sc : Scheme) (hv : s.validate = .ok ())
    (hcap : s.registry.record = false ∨ s.registry.journalSize ≤ Journal.maxCapacity) :
    (s.build sc).Ends (fun _ => True) (fun _ => False) := by
  -- whatever journal is chosen, the registry is made and the build logged
  have made : ∀ (j : Option Journal) (k : Registry → Loading Registry),
      (∀ reg, (k reg).Ends (fun _ => True) (fun _ => False)) →
      (Loading.lift (Registry.new sc (s.registry.maxDepth.map .int) (.int s.registry.traceLevel) j)
        >>= k).Ends (fun _ => True) (fun _ => False) := by
    intro j k hk
    obtain ⟨reg, hreg⟩ := s.new_ok sc hv j
    exact Loading.ends_lift_bind hreg (hk reg)
  have logged : ∀ (l : LogLine) (reg : Registry),
      (Loading.log l >>= fun _ => pure reg : Loading Registry).Ends (fun _ => True) (fun _ => False) :=
    fun _ _ => Loading.ends_bind Loading.ends_log fun _ _ => Loading.ends_pure trivial
  unfold Settings.build
  dsimp only
  refine Loading.ends_lift_bind hv ?_
  split
  case isTrue hrec =>
    have hle : ¬Journal.maxCapacity < s.registry.journalSize := by
      rcases hcap with h | h
      · rw [h] at hrec
        cases hrec
      · omega
    rw [if_neg hle, pure_bind]
    exact made _ _ fun reg => logged _ reg
  case isFalse =>
    rw [pure_bind]
    exact made _ _ fun reg => logged _ reg

-- A document shaped as settings: an object whose `registry` and `logging` members, where present,
-- are objects.
def Json.SettingsShaped : Json → Prop
  | .obj ms => (∀ v, ms.lookup (Text.ofString "registry") = some v → ∃ rs, v = .obj rs) ∧
      ∀ v, ms.lookup (Text.ofString "logging") = some v → ∃ ls, v = .obj ls
  | _ => False

-- A computed check of the same shape.
def Json.groupShaped (ms : List (Text × Json)) (g : String) : Bool :=
  match ms.lookup (Text.ofString g) with
  | some (.obj _) | none => true
  | some _ => false

def Json.settingsShaped : Json → Bool
  | .obj ms => groupShaped ms "registry" && groupShaped ms "logging"
  | _ => false

theorem Json.groupShaped_iff {ms : List (Text × Json)} {g : String} :
    groupShaped ms g = true ↔ ∀ v, ms.lookup (Text.ofString g) = some v → ∃ rs, v = .obj rs := by
  unfold groupShaped
  cases ms.lookup (Text.ofString g) with
  | none => simp
  | some v => cases v <;> simp

theorem Json.settingsShaped_iff (d : Json) : d.settingsShaped = true ↔ d.SettingsShaped := by
  cases d <;> simp [settingsShaped, SettingsShaped, groupShaped_iff]

-- The members of group `g` of a document with members `ms`: those of its object, and none where the
-- group is absent or is not an object.
def Json.groupMembers (ms : List (Text × Json)) (g : String) : List (Text × Json) :=
  match ms.lookup (Text.ofString g) with
  | some (.obj rs) => rs
  | _ => []

-- A group that is absent or an object gives its members.
theorem Json.items_getOr_group {ms : List (Text × Json)} {g : String}
    (h : ∀ v, ms.lookup (Text.ofString g) = some v → ∃ rs, v = .obj rs) :
    (getOr (Text.ofString g) (.obj []) (.obj ms) >>= items) = .ok (groupMembers ms g) := by
  cases hk : ms.lookup (Text.ofString g) with
  | none => simp [getOr, hk, items, groupMembers, bind, Except.bind]
  | some v =>
    obtain ⟨rs, rfl⟩ := h v hk
    simp [getOr, hk, items, groupMembers, bind, Except.bind]

-- From an environment that reads, a document shaped as settings fails only as its settings
-- convert.
theorem Settings.fromDocument_ends {env : Environment} {data : Json}
    (henv : ∃ s₀, fromEnvironment env = .ok s₀) (hshape : data.SettingsShaped) :
    (fromDocument env data).Ends (fun _ => True) Fault.OfSetting := by
  obtain ⟨s₀, hs₀⟩ := henv
  cases data with
  | obj ms =>
    have hrs := Json.items_getOr_group hshape.1
    have hls := Json.items_getOr_group hshape.2
    -- with the environment member taken or not, the two groups are set in turn
    have groups : ∀ s : Settings, (do
        let registry ← Loading.lift (Json.getOr "registry" (.obj []) (.obj ms) >>= Json.items)
        let s ← s.setGroup "registry" registry
        let logging ← Loading.lift (Json.getOr "logging" (.obj []) (.obj ms) >>= Json.items)
        s.setGroup "logging" logging : Loading Settings).Ends (fun _ => True) Fault.OfSetting :=
      fun s => Loading.ends_lift_bind hrs (Loading.ends_bind (setGroup_ends _ _ _)
        fun s _ => Loading.ends_lift_bind hls (setGroup_ends _ _ _))
    unfold fromDocument
    simp only [pure_bind]
    refine Loading.ends_lift_bind hs₀ (Loading.ends_lift_bind rfl ?_)
    split
    case isTrue => exact Loading.ends_lift_bind rfl (groups _)
    case isFalse => exact groups _
  | _ => exact hshape.elim

-- The faults loading a settings file may end with: those of converting a setting, and an integer in
-- the file with more digits than the reader takes.
def Fault.OfSettingsFile (f : Fault) : Prop :=
  f.OfSetting ∨ ∃ n, f = .host (.intTextTooLong n)

-- A place loading may look at can be checked, and a file there read, and the document its text
-- holds, if it holds one, is shaped as settings.
def Disk.Folder.SettingsAt (folder : Disk.Folder) (p : Text) : Prop :=
  ∃ b, folder.isPresent p = .ok b ∧ (b = true → ∃ text, folder.read p = .ok text ∧
    ∀ data, Json.read (String.ofList (text.codes.map Char.ofNat)) = .ok data → data.SettingsShaped)

section Files

variable {folder : Disk.Folder} {env : Environment} {bad : Fault → Prop}

theorem Settings.environment_ends (henv : ∃ s₀, fromEnvironment env = .ok s₀) :
    (Loading.lift (fromEnvironment env)).Ends (fun _ => True) bad := by
  obtain ⟨s₀, hs₀⟩ := henv
  exact Loading.ends_lift (fun _ _ => trivial) fun _ h => by rw [hs₀] at h; cases h

theorem Settings.fromFile_ends {p : Text} (hat : folder.SettingsAt p)
    (henv : ∃ s₀, fromEnvironment env = .ok s₀) :
    (fromFile folder env p).Ends (fun _ => True) Fault.OfSettingsFile := by
  obtain ⟨b, hpresent, hfile⟩ := hat
  unfold fromFile
  refine Loading.ends_lift_bind (by rw [hpresent]; rfl) ?_
  cases b with
  | false =>
    -- a missing file leaves the environment alone
    exact Loading.ends_bind Loading.ends_log fun _ _ => environment_ends henv
  | true =>
    obtain ⟨text, hread, hshape⟩ := hfile rfl
    simp only [Bool.not_true, Bool.false_eq_true, if_false]
    refine Loading.ends_lift_bind (by rw [hread]; rfl) ?_
    split
    case h_1 data hdata =>
      exact (fromDocument_ends henv (hshape data hdata)).mono (fun _ h => h) fun _ h => .inl h
    case h_2 => exact Loading.ends_throw (.inl (.inl ⟨_, rfl⟩))
    case h_3 n _ => exact Loading.ends_throw (.inr ⟨n, rfl⟩)

theorem Settings.fromDefaults_ends {ps : List Text} (hat : ∀ q ∈ ps, folder.SettingsAt q)
    (henv : ∃ s₀, fromEnvironment env = .ok s₀) :
    (fromDefaults folder env ps).Ends (fun _ => True) Fault.OfSettingsFile := by
  induction ps with
  | nil => exact environment_ends henv
  | cons p ps ih =>
    obtain ⟨b, hpresent, -⟩ := hat p List.mem_cons_self
    unfold fromDefaults
    refine Loading.ends_lift_bind (by rw [hpresent]; rfl) ?_
    cases b with
    | false => exact ih fun q hq => hat q (List.mem_cons_of_mem p hq)
    | true =>
      exact Loading.ends_bind (fromFile_ends (hat p List.mem_cons_self) henv) fun s _ =>
        Loading.ends_bind Loading.ends_log fun _ _ => Loading.ends_pure trivial

end Files

-- Settings as loading should give them: they pass their checks, and a registry is built from them
-- unless a journal is asked for with a capacity beyond the machine's sizes.
def Settings.Usable (sc : Scheme) (s : Settings) : Prop :=
  s.validate = .ok () ∧
    (s.registry.record = false ∨ s.registry.journalSize ≤ Journal.maxCapacity →
      (s.build sc).Ends (fun _ => True) (fun _ => False))

theorem load_gives_checked_settings (folder : Disk.Folder) (env : Environment) (path : Option Text)
    (sc : Scheme)
    (hat : ∀ q, path = some q ∨ q ∈ defaultSettingsPaths → folder.SettingsAt q)
    (henv : ∃ s₀, Settings.fromEnvironment env = .ok s₀) :
    (Settings.load folder env path).Ends
      (Settings.Usable sc) Fault.OfSettingsFile := by
  -- the settings found are checked last: they pass, or fail with a configuration fault
  have checked : ∀ s : Settings, (do Loading.lift s.validate; pure s : Loading Settings).Ends
      (Settings.Usable sc) Fault.OfSettingsFile := by
    intro s
    have hcheck : (Loading.lift s.validate).Ends (fun _ => s.validate = .ok ())
        Fault.OfSettingsFile :=
      Loading.ends_lift (fun _ h => h) fun _ h => .inl (.inl (Settings.validate_error h))
    exact Loading.ends_bind hcheck fun _ hv => Loading.ends_pure ⟨hv, Settings.build_ends sc hv⟩
  have defaults : (Settings.fromDefaults folder env defaultSettingsPaths).Ends (fun _ => True)
      Fault.OfSettingsFile :=
    Settings.fromDefaults_ends (fun q hq => hat q (.inr hq)) henv
  unfold Settings.load
  cases path with
  | none => exact Loading.ends_bind defaults fun s _ => checked s
  | some p =>
    dsimp only
    split
    case isTrue => exact Loading.ends_bind defaults fun s _ => checked s
    case isFalse =>
      exact Loading.ends_bind (Settings.fromFile_ends (hat p (.inl rfl)) henv) fun s _ => checked s

-- A folder that holds one file, at its top.
def Disk.Folder.single (name text : Text) : Disk.Folder := ⟨[([name], .file text)]⟩

theorem Except.eq_ok_of_toOption {ε α : Type} {x : Except ε α} {a : α} (h : x.toOption = some a) :
    x = .ok a := by
  cases x <;> simp_all [Except.toOption]

theorem Json.settingsShaped_of_read {s : String} {data : Json} (h : Json.read s = .ok data)
    (hc : (Json.read s).toOption.map settingsShaped = some true) : data.SettingsShaped := by
  rw [h] at hc
  exact (settingsShaped_iff data).1 (Option.some.inj hc)

def sampleSettingsText : Text :=
  "\x7b\"registry\": \x7b\"trace_level\": 1, \"max_depth\": 8\x7d, \"logging\": \x7b\"level\": \"DEBUG\"\x7d\x7d"

theorem load_gives_checked_settings_sample :
    (Settings.load (.single "metadep.json" sampleSettingsText) [("METADEP_TRACE_LEVEL", "2")]
      (some "metadep.json")).Ends (Settings.Usable .standard) Fault.OfSettingsFile := by
  refine load_gives_checked_settings _ _ _ .standard ?_ ?_
  · -- the given file and the first default place hold the document; the second holds nothing
    intro q hq
    simp only [Option.some.injEq, defaultSettingsPaths, List.map_cons, List.map_nil,
      List.mem_cons, List.not_mem_nil, or_false] at hq
    rcases hq with rfl | rfl | rfl
    · exact ⟨true, Except.eq_ok_of_toOption (by decide +kernel), fun _ =>
        ⟨sampleSettingsText, Except.eq_ok_of_toOption (by decide +kernel), fun _ hdata =>
          Json.settingsShaped_of_read hdata (by decide +kernel)⟩⟩
    · exact ⟨true, Except.eq_ok_of_toOption (by decide +kernel), fun _ =>
        ⟨sampleSettingsText, Except.eq_ok_of_toOption (by decide +kernel), fun _ hdata =>
          Json.settingsShaped_of_read hdata (by decide +kernel)⟩⟩
    · exact ⟨false, Except.eq_ok_of_toOption (by decide +kernel), nofun⟩
  · exact ⟨_, rfl⟩

theorem load_and_build_fail_outside_configuration :
    (match ((Settings.load (.single "metadep.json" "{}") [("METADEP_TRACE_LEVEL", "abc")]
        (some "metadep.json")).run.run #[]).1 with
      | .error f => f.kind
      | .ok _ => "") = "ValueError" ∧
    (match ((Settings.load (.single "metadep.json" "[]") [] (some "metadep.json")).run.run #[]).1 with
      | .error f => f.kind
      | .ok _ => "") = "AttributeError" ∧
    ({ registry := { record := true, journalSize := 9223372036854775808 } } : Settings).validate.toOption
      = some () ∧
    (match ((({ registry := { record := true, journalSize := 9223372036854775808 } } :
        Settings).build .standard).run.run #[]).1 with
      | .error f => f.kind
      | .ok _ => "") = "OverflowError" := by
  decide +kernel

end Invalidation
