import Invalidation.Proofs.SettingsText

namespace Invalidation

namespace Field

-- The group of a setting.
def group : Field → String
  | .traceLevel | .maxDepth | .record | .journalSize => "registry"
  | .level | .format | .logFile => "logging"

-- The name of a setting in its group.
def name : Field → String
  | .traceLevel => "trace_level"
  | .maxDepth => "max_depth"
  | .record => "record_notifications"
  | .journalSize => "notification_log_size"
  | .level => "level"
  | .format => "format"
  | .logFile => "log_file"

theorem find?_eq_some {g k : String} {f : Field} (h : find? g k = some f) :
    g = f.group ∧ k = f.name := by
  unfold find? at h
  split at h <;> cases h <;> exact ⟨rfl, rfl⟩

theorem findText?_eq_some {g : String} {key : Text} {f : Field} (h : findText? g key = some f) :
    g = f.group ∧ key.toString? = some f.name := by
  obtain ⟨k, hk, hf⟩ := Option.bind_eq_some_iff.1 h
  obtain ⟨hg, rfl⟩ := find?_eq_some hf
  exact ⟨hg, hk⟩

end Field

namespace Settings

-- A setting's value as the document of settings writes it.
def value (s : Settings) : Field → Json
  | .traceLevel => .int s.registry.traceLevel
  | .maxDepth => optionalInt s.registry.maxDepth
  | .record => .bool s.registry.record
  | .journalSize => .int s.registry.journalSize
  | .level => .str s.logging.level
  | .format => .str s.logging.format
  | .logFile => Json.ofOption s.logging.logFile

-- Settings are their environment and the values of their settings.
theorem ext_value {s t : Settings} (he : s.environment = t.environment)
    (hv : ∀ f, s.value f = t.value f) : s = t := by
  obtain ⟨e, ⟨tl, md, rc, js⟩, ⟨lv, fm, lf⟩⟩ := s
  obtain ⟨e', ⟨tl', md', rc', js'⟩, ⟨lv', fm', lf'⟩⟩ := t
  have htl := hv .traceLevel
  have hmd := hv .maxDepth
  have hrc := hv .record
  have hjs := hv .journalSize
  have hlv := hv .level
  have hfm := hv .format
  have hlf := hv .logFile
  simp only [value, Json.int.injEq, Json.bool.injEq, Json.str.injEq] at he htl hrc hjs hlv hfm
  cases md <;> cases md' <;> cases lf <;> cases lf' <;>
    simp_all [value, optionalInt, Json.ofOption]

-- What a member converts to for a setting: the value it sets the setting to, or the fault of its
-- conversion.
def convert (g k : String) (f : Field) (v : Json) : Except Fault Json :=
  (({} : Settings).set g k f v).map (·.value f)

-- The value a member sets does not depend on the settings it is set in.
theorem set_value (s : Settings) (g k : String) (f : Field) (v : Json) :
    (s.set g k f v).map (·.value f) = convert g k f v := by
  unfold convert Settings.set
  cases f <;> cases v <;>
    simp [value, Field.nullable, bind, Except.bind, pure, Except.pure, Except.map, throw, throwThe,
      MonadExceptOf.throw]
  -- an integer setting: the conversion gives an integer or fails, whatever the settings
  all_goals (cases toIntSetting g k _ <;> rfl)

-- Setting one setting leaves the environment and every other setting.
theorem set_frame {s s' : Settings} {g k : String} {f : Field} {v : Json}
    (h : s.set g k f v = .ok s') :
    s'.environment = s.environment ∧ ∀ f', f' ≠ f → s'.value f' = s.value f' := by
  unfold Settings.set at h
  cases f <;> cases v <;>
    simp [Field.nullable, bind, Except.bind, pure, Except.pure, throw, throwThe,
      MonadExceptOf.throw] at h
  -- an integer setting is set only when its conversion gives an integer
  all_goals (try split at h)
  all_goals (try cases h)
  all_goals exact ⟨rfl, fun f' hf' => by cases f' <;> simp_all [value]⟩

theorem set_eq_value {s s' : Settings} {g k : String} {f : Field} {v : Json}
    (h : s.set g k f v = .ok s') : convert g k f v = .ok (s'.value f) := by
  rw [← set_value s, h]
  rfl

theorem set_ok_of_convert {s : Settings} {g k : String} {f : Field} {v : Json} {x : Json}
    (h : convert g k f v = .ok x) : ∃ s', s.set g k f v = .ok s' := by
  rw [← set_value s] at h
  cases hs : s.set g k f v with
  | ok s' => exact ⟨s', rfl⟩
  | error e => rw [hs] at h; cases h

theorem set_error_of_convert {s : Settings} {g k : String} {f : Field} {v : Json} {e : Fault}
    (h : s.set g k f v = .error e) : convert g k f v = .error e := by
  rw [← set_value s, h]
  rfl

-- The value of the last member of a group that names a setting, if any member does.
def lastNaming (g : String) : List (Text × Json) → Field → Option Json
  | [], _ => none
  | (key, v) :: rest, f =>
    (lastNaming g rest f).or (if Field.findText? g key = some f then some v else none)

-- The warnings for the members of a group that name no setting, in order.
def ignoredLines (g : String) (rs : List (Text × Json)) : List LogLine :=
  rs.filterMap fun m => if (Field.findText? g m.1).isSome then none
    else some ⟨.warning, .settings, Text.ofString ("Ignoring unknown " ++ g ++ " setting: ") ++ m.1⟩

-- Every member of a group that names a setting converts.
def Converts (g : String) (rs : List (Text × Json)) : Prop :=
  ∀ m ∈ rs, ∀ f, Field.findText? g m.1 = some f → ∃ x, convert g f.name f m.2 = .ok x

-- Settings `t` are `s` with the members `rs` of group `g` set: each setting some member names takes
-- what the last such member converts to, and every other setting keeps its value.
structure SetBy (g : String) (rs : List (Text × Json)) (s t : Settings) : Prop where
  environment : t.environment = s.environment
  named : ∀ f v, lastNaming g rs f = some v → convert g f.name f v = .ok (t.value f)
  kept : ∀ f, lastNaming g rs f = none → t.value f = s.value f

variable {g : String} {key : Text} {v : Json} {rest rs : List (Text × Json)}
  {s t : Settings} {logs logs' : Array LogLine}

theorem setGroup_known_ok {f : Field} {s' : Settings} (hf : Field.findText? g key = some f)
    (hs : s.set g f.name f v = .ok s') :
    (s.setGroup g ((key, v) :: rest)).run.run logs = (s'.setGroup g rest).run.run logs := by
  rw [setGroup, (Field.findText?_eq_some hf).2, hf]
  simp [hs, Loading.lift]

theorem setGroup_known_error {f : Field} {e : Fault} (hf : Field.findText? g key = some f)
    (hs : s.set g f.name f v = .error e) :
    (s.setGroup g ((key, v) :: rest)).run.run logs = (.error e, logs) := by
  rw [setGroup, (Field.findText?_eq_some hf).2, hf]
  simp [hs, Loading.lift]
  rfl

theorem setGroup_unknown (hf : Field.findText? g key = none) :
    (s.setGroup g ((key, v) :: rest)).run.run logs = (s.setGroup g rest).run.run
      (logs.push ⟨.warning, .settings, Text.ofString ("Ignoring unknown " ++ g ++ " setting: ") ++ key⟩) := by
  rw [setGroup]
  cases hk : key.toString? <;> simp [hf, Loading.log, ExceptT.run_bind] <;> rfl

theorem lastNaming_eq_none {f : Field} (hg : g ≠ f.group) : ∀ rs, lastNaming g rs f = none
  | [] => rfl
  | (key, _) :: rest => by
    have hkey : Field.findText? g key ≠ some f := fun h => hg (Field.findText?_eq_some h).1
    simp [lastNaming, lastNaming_eq_none hg rest, hkey]

@[simp] theorem lastNaming_nil (f : Field) : lastNaming g [] f = none := rfl

@[simp] theorem lastNaming_cons (f : Field) :
    lastNaming g ((key, v) :: rest) f =
      (lastNaming g rest f).or (if Field.findText? g key = some f then some v else none) := rfl

-- A member that names no setting sets nothing.
theorem SetBy.cons_unknown (hf : Field.findText? g key = none) (h : SetBy g rest s t) :
    SetBy g ((key, v) :: rest) s t where
  environment := h.environment
  named f w hl := h.named f w (by simpa [hf] using hl)
  kept f hl := h.kept f (by simpa [hf] using hl)

-- A member that names `f` and is set first: a later member naming a setting wins over it.
theorem SetBy.cons_known {f : Field} {s₁ : Settings} (hf : Field.findText? g key = some f)
    (hs : s.set g f.name f v = .ok s₁) (h : SetBy g rest s₁ t) : SetBy g ((key, v) :: rest) s t := by
  obtain ⟨henv₁, hframe⟩ := set_frame hs
  refine ⟨h.environment.trans henv₁, fun f' w hl => ?_, fun f' hl => ?_⟩
  · cases hl' : lastNaming g rest f' with
    | some w' =>
      rw [lastNaming_cons, hl', Option.some_or] at hl
      exact Option.some.inj hl ▸ h.named f' w' hl'
    | none =>
      -- no later member names `f'`, so this one does and it is `f`
      rw [lastNaming_cons, hl', Option.none_or] at hl
      split at hl
      · next hff =>
        obtain rfl := Option.some.inj (hf.symm.trans hff)
        cases hl
        rw [h.kept f hl']
        exact set_eq_value hs
      · cases hl
  · rw [lastNaming_cons, Option.or_eq_none_iff] at hl
    have hff : f' ≠ f := fun hff => by simp [hff, hf] at hl
    rw [h.kept f' hl.1, hframe f' hff]

-- With every member converting, a group sets what `SetBy` says, and logs one warning for each
-- member that names no setting.
theorem setGroup_ok (hconv : Converts g rs) (s : Settings) (logs : Array LogLine) :
    ∃ t, (s.setGroup g rs).run.run logs = (.ok t, logs ++ (ignoredLines g rs).toArray) ∧
      SetBy g rs s t := by
  induction rs generalizing s logs with
  | nil => exact ⟨s, by simp [setGroup, ignoredLines]; rfl, rfl, fun f v h => (by cases h), fun f _ => rfl⟩
  | cons m rest ih =>
    obtain ⟨key, v⟩ := m
    have hrest : Converts g rest := fun m hm => hconv m (List.mem_cons_of_mem _ hm)
    cases hf : Field.findText? g key with
    | none =>
      obtain ⟨t, hrun, hset⟩ := ih hrest s _
      exact ⟨t, by rw [setGroup_unknown hf, hrun]; simp [ignoredLines, hf], hset.cons_unknown hf⟩
    | some f =>
      obtain ⟨x, hx⟩ := hconv (key, v) List.mem_cons_self f hf
      obtain ⟨s₁, hs₁⟩ := set_ok_of_convert (s := s) hx
      obtain ⟨t, hrun, hset⟩ := ih hrest s₁ logs
      exact ⟨t, by rw [setGroup_known_ok hf hs₁, hrun]; simp [ignoredLines, hf], hset.cons_known hf hs₁⟩

-- A group that gives settings has every member that names a setting converting.
theorem setGroup_converts (h : (s.setGroup g rs).run.run logs = (.ok t, logs')) : Converts g rs := by
  induction rs generalizing s logs with
  | nil => exact fun m hm => absurd hm List.not_mem_nil
  | cons m rest ih =>
    obtain ⟨key, v⟩ := m
    intro m' hm' f' hf'
    cases hf : Field.findText? g key with
    | none =>
      rw [setGroup_unknown hf] at h
      rcases List.mem_cons.1 hm' with rfl | hm'
      · rw [hf] at hf'
        cases hf'
      · exact ih h m' hm' f' hf'
    | some f =>
      cases hs : s.set g f.name f v with
      | error e =>
        rw [setGroup_known_error hf hs] at h
        cases h
      | ok s₁ =>
        rw [setGroup_known_ok hf hs] at h
        rcases List.mem_cons.1 hm' with rfl | hm'
        · rw [hf] at hf'
          cases hf'
          exact ⟨_, set_eq_value hs⟩
        · exact ih h m' hm' f' hf'

-- A group fails only with the fault of converting one of its members.
theorem setGroup_error {e : Fault} (h : (s.setGroup g rs).run.run logs = (.error e, logs')) :
    ∃ m ∈ rs, ∃ f, Field.findText? g m.1 = some f ∧ convert g f.name f m.2 = .error e := by
  induction rs generalizing s logs with
  | nil => cases h
  | cons m rest ih =>
    obtain ⟨key, v⟩ := m
    cases hf : Field.findText? g key with
    | none =>
      rw [setGroup_unknown hf] at h
      obtain ⟨m, hm, hmf⟩ := ih h
      exact ⟨m, List.mem_cons_of_mem _ hm, hmf⟩
    | some f =>
      cases hs : s.set g f.name f v with
      | error e' =>
        rw [setGroup_known_error hf hs] at h
        cases h
        exact ⟨(key, v), List.mem_cons_self, f, hf, set_error_of_convert hs⟩
      | ok s₁ =>
        rw [setGroup_known_ok hf hs] at h
        obtain ⟨m, hm, hmf⟩ := ih h
        exact ⟨m, List.mem_cons_of_mem _ hm, hmf⟩

theorem value_environment (s : Settings) (e : Json) (f : Field) :
    ({ s with environment := e } : Settings).value f = s.value f := by
  cases f <;> rfl

-- A member fails to convert with a configuration fault, unless it gives an integer setting an
-- infinite double.
theorem convert_error_isConfiguration {g k : String} {f : Field} {v : Json} {e : Fault}
    (h : convert g k f v = .error e)
    (hfinite : f.kind = .int → ∀ x neg, v = .float x → Decimal.Binary.ofFloat x ≠ .infinite neg) :
    e.IsConfiguration := by
  have hset : ({} : Settings).set g k f v = .error e := by
    unfold convert at h
    cases hs : ({} : Settings).set g k f v with
    | ok s => rw [hs] at h; cases h
    | error e' => rw [hs] at h; cases h; rfl
  rcases set_error_cases hset with hc | ⟨hint, hconv⟩
  · exact hc
  -- an integer setting whose conversion fails: on an infinite double only with no
  -- configuration fault
  rcases toIntSetting_error_cases hconv with hc | ⟨-, x, neg, rfl, hx⟩
  · exact hc
  · exact absurd hx (hfinite hint x neg rfl)

end Settings

theorem Field.group_eq_registry_of_kind {f : Field} (h : f.kind = .int) : f.group = "registry" := by
  cases f <;> simp [Field.kind, Field.group] at h ⊢

theorem Field.group_cases (f : Field) : f.group = "registry" ∨ f.group = "logging" := by
  cases f <;> simp [Field.group]

namespace Loading

variable {α β : Type} {m : Loading α} {k : α → Loading β} {logs logs' : Array LogLine}

theorem run_bind_ok {a : α} (h : m.run.run logs = (.ok a, logs')) :
    (m >>= k).run.run logs = (k a).run.run logs' := by
  simp only [ExceptT.run_bind, StateT.run_bind, h]
  rfl

theorem run_bind_eq_ok {b : β} (h : (m >>= k).run.run logs = (.ok b, logs')) :
    ∃ a mid, m.run.run logs = (.ok a, mid) ∧ (k a).run.run mid = (.ok b, logs') := by
  cases hm : m.run.run logs with
  | mk r mid =>
    cases r with
    | ok a => exact ⟨a, mid, rfl, by rw [← run_bind_ok hm, h]⟩
    | error e =>
      simp only [ExceptT.run_bind, StateT.run_bind, hm] at h
      cases h

theorem run_bind_eq_error {e : Fault} (h : (m >>= k).run.run logs = (.error e, logs')) :
    m.run.run logs = (.error e, logs') ∨
      ∃ a mid, m.run.run logs = (.ok a, mid) ∧ (k a).run.run mid = (.error e, logs') := by
  cases hm : m.run.run logs with
  | mk r mid =>
    cases r with
    | ok a => exact .inr ⟨a, mid, rfl, by rw [← run_bind_ok hm, h]⟩
    | error e' =>
      simp only [ExceptT.run_bind, StateT.run_bind, hm] at h
      cases h
      exact .inl rfl

end Loading

namespace Settings

variable {g g' : String} {rs ls : List (Text × Json)} {s t : Settings} {logs logs' : Array LogLine}

-- A setting outside a group's own keeps its value.
theorem SetBy.value_other {f : Field} (h : SetBy g rs s t) (hg : g ≠ f.group) : t.value f = s.value f :=
  h.kept f (lastNaming_eq_none hg rs)

-- Two groups in turn, every member of both converting: each group sets what `SetBy` says, and
-- the warnings of the first group come before those of the second.
theorem setGroups_ok (hr : Converts g rs) (hl : Converts g' ls) (s : Settings) (logs : Array LogLine) :
    ∃ t u, (s.setGroup g rs >>= fun t => t.setGroup g' ls).run.run logs =
        (.ok u, logs ++ (ignoredLines g rs ++ ignoredLines g' ls).toArray) ∧
      SetBy g rs s t ∧ SetBy g' ls t u := by
  obtain ⟨t, hrun, hset⟩ := setGroup_ok hr s logs
  obtain ⟨u, hrun', hset'⟩ := setGroup_ok hl t (logs ++ (ignoredLines g rs).toArray)
  refine ⟨t, u, ?_, hset, hset'⟩
  rw [Loading.run_bind_ok hrun, hrun']
  simp

theorem setGroups_converts {u : Settings}
    (h : (s.setGroup g rs >>= fun t => t.setGroup g' ls).run.run logs = (.ok u, logs')) :
    Converts g rs ∧ Converts g' ls := by
  obtain ⟨t, mid, h₁, h₂⟩ := Loading.run_bind_eq_ok h
  exact ⟨setGroup_converts h₁, setGroup_converts h₂⟩

theorem setGroups_error {e : Fault}
    (h : (s.setGroup g rs >>= fun t => t.setGroup g' ls).run.run logs = (.error e, logs')) :
    (∃ m ∈ rs, ∃ f, Field.findText? g m.1 = some f ∧ convert g f.name f m.2 = .error e) ∨
      ∃ m ∈ ls, ∃ f, Field.findText? g' m.1 = some f ∧ convert g' f.name f m.2 = .error e := by
  rcases Loading.run_bind_eq_error h with h₁ | ⟨t, mid, -, h₂⟩
  · exact .inl (setGroup_error h₁)
  · exact .inr (setGroup_error h₂)

end Settings

namespace Json

-- An object has a member under a key exactly when looking the key up finds one.
theorem memberOf_obj (key : Text) (ms : List (Text × Json)) :
    memberOf key (.obj ms) = .ok (ms.lookup key).isSome := by
  show Except.ok (ms.any (·.1 == key)) = _
  congr 1
  induction ms with
  | nil => rfl
  | cons m ms ih =>
    obtain ⟨k, v⟩ := m
    by_cases hk : key = k
    · subst hk
      simp [List.lookup]
    · have hne : (key == k) = false := by simpa using hk
      have hne' : (k == key) = false := by simpa using Ne.symm hk
      simp only [List.any_cons, List.lookup, hne, hne', Bool.false_or, ih]

end Json

namespace Settings

-- The warnings of a document with members `ms`: one for each member of its `registry` group and
-- then of its `logging` group that names no setting, in order.
def documentWarnings (ms : List (Text × Json)) : List LogLine :=
  ignoredLines "registry" (Json.groupMembers ms "registry") ++
    ignoredLines "logging" (Json.groupMembers ms "logging")

-- A document shaped as settings takes its environment member, then sets its two groups in turn.
theorem fromDocument_obj {env : Environment} {s₀ : Settings} (henv : fromEnvironment env = .ok s₀)
    {ms : List (Text × Json)} (hshape : (Json.obj ms).SettingsShaped) :
    fromDocument env (.obj ms) =
      (({ s₀ with environment := (ms.lookup (Text.ofString "environment")).getD s₀.environment } :
          Settings).setGroup "registry" (Json.groupMembers ms "registry") >>=
        fun s => s.setGroup "logging" (Json.groupMembers ms "logging")) := by
  unfold fromDocument
  simp only [henv, Json.memberOf_obj, Json.index, Json.items_getOr_group hshape.1,
    Json.items_getOr_group hshape.2, Loading.lift, pure_bind]
  cases ms.lookup (Text.ofString "environment") <;> rfl

-- Settings `s` are `s₀` overridden by the document with members `ms`: the document's `environment`
-- member, if any, replaces the environment; each setting that a member of its group names takes
-- what the last such member converts to; and every other setting keeps its value.
structure Overrides (s s₀ : Settings) (ms : List (Text × Json)) : Prop where
  environment : s.environment = (ms.lookup (Text.ofString "environment")).getD s₀.environment
  named : ∀ f v, lastNaming f.group (Json.groupMembers ms f.group) f = some v →
    convert f.group f.name f v = .ok (s.value f)
  kept : ∀ f, lastNaming f.group (Json.groupMembers ms f.group) f = none → s.value f = s₀.value f

variable {s₀ : Settings} {ms : List (Text × Json)}

-- What a document overrides determines the settings.
theorem Overrides.unique {s t : Settings} (hs : s.Overrides s₀ ms) (ht : t.Overrides s₀ ms) :
    s = t := by
  refine ext_value (hs.environment.trans ht.environment.symm) fun f => ?_
  cases hl : lastNaming f.group (Json.groupMembers ms f.group) f with
  | some v => exact Except.ok.inj ((hs.named f v hl).symm.trans (ht.named f v hl))
  | none => exact (hs.kept f hl).trans (ht.kept f hl).symm

-- The registry group set on `s₀` with the document's environment, then the logging group, set
-- what the document overrides: each group leaves the other's settings as they are.
theorem Overrides.of_setBy {t u : Settings}
    (hr : SetBy "registry" (Json.groupMembers ms "registry")
      { s₀ with environment := (ms.lookup (Text.ofString "environment")).getD s₀.environment } t)
    (hl : SetBy "logging" (Json.groupMembers ms "logging") t u) : u.Overrides s₀ ms where
  environment := hl.environment.trans hr.environment
  named f v h := by
    rcases Field.group_cases f with hg | hg <;> rw [hg] at h ⊢
    · rw [hl.value_other (by rw [hg]; decide)]
      exact hr.named f v h
    · exact hl.named f v h
  kept f h := by
    rcases Field.group_cases f with hg | hg <;> rw [hg] at h
    · rw [hl.value_other (by rw [hg]; decide), hr.kept f h, value_environment]
    · rw [hl.kept f h, hr.value_other (by rw [hg]; decide), value_environment]

-- A member of group `g` gives an integer setting an infinite double.
def InfiniteForInt (g : String) (m : Text × Json) : Prop :=
  ∃ f x neg, Field.findText? g m.1 = some f ∧ f.kind = .int ∧ m.2 = .float x ∧
    Decimal.Binary.ofFloat x = .infinite neg

-- No logging setting is an integer setting.
theorem not_infiniteForInt_logging (m : Text × Json) : ¬InfiniteForInt "logging" m := by
  rintro ⟨f, x, neg, hf, hint, -, -⟩
  have hlogging := (Field.findText?_eq_some hf).1
  rw [Field.group_eq_registry_of_kind hint] at hlogging
  exact absurd hlogging (by decide)

-- A member that names a setting fails to convert only with a configuration fault, unless it
-- gives an integer setting an infinite double.
theorem convert_member_error {g : String} {m : Text × Json} {f : Field} {e : Fault}
    (hf : Field.findText? g m.1 = some f) (h : convert g f.name f m.2 = .error e)
    (hfinite : ¬InfiniteForInt g m) : e.IsConfiguration :=
  convert_error_isConfiguration h fun hint x neg hx hinf => hfinite ⟨f, x, neg, hf, hint, hx, hinf⟩

end Settings

open Settings in
theorem document_overrides_environment (env : Environment) (s₀ : Settings)
    (henv : fromEnvironment env = .ok s₀) (ms : List (Text × Json))
    (hshape : (Json.obj ms).SettingsShaped)
    (hfinite : ∀ m ∈ Json.groupMembers ms "registry", ¬InfiniteForInt "registry" m)
    (logs : Array LogLine) :
    (∀ s logs', (fromDocument env (.obj ms)).run.run logs = (.ok s, logs') →
      s.Overrides s₀ ms ∧ logs' = logs ++ (documentWarnings ms).toArray) ∧
    (∀ e logs', (fromDocument env (.obj ms)).run.run logs = (.error e, logs') →
      e.IsConfiguration) ∧
    ((∃ s logs', (fromDocument env (.obj ms)).run.run logs = (.ok s, logs')) ↔
      Converts "registry" (Json.groupMembers ms "registry") ∧
        Converts "logging" (Json.groupMembers ms "logging")) := by
  rw [fromDocument_obj henv hshape]
  refine ⟨fun s logs' h => ?_, fun e logs' h => ?_,
    fun ⟨_, _, h⟩ => setGroups_converts h, fun ⟨hr, hl⟩ => ?_⟩
  · -- the run is the one `setGroups_ok` describes
    obtain ⟨hr, hl⟩ := setGroups_converts h
    obtain ⟨t, u, hrun, hsr, hsl⟩ := setGroups_ok hr hl _ logs
    rw [hrun] at h
    cases h
    exact ⟨Overrides.of_setBy hsr hsl, rfl⟩
  · rcases setGroups_error h with ⟨m, hm, f, hf, hc⟩ | ⟨m, -, f, hf, hc⟩
    · exact convert_member_error hf hc (hfinite m hm)
    · exact convert_member_error hf hc (not_infiniteForInt_logging m)
  · obtain ⟨t, u, hrun, -, -⟩ := setGroups_ok hr hl _ logs
    exact ⟨u, _, hrun⟩

open Settings in
theorem document_overrides_environment_sample :
    (Json.obj [("registry", .obj [("trace_level", .int 3), ("colour", .str "x")]),
        ("logging", .obj [("level", .str "DEBUG")])]).SettingsShaped ∧
    (∀ m ∈ Json.groupMembers [("registry", .obj [("trace_level", .int 3), ("colour", .str "x")]),
        ("logging", .obj [("level", .str "DEBUG")])] "registry", ¬InfiniteForInt "registry" m) ∧
    ∀ s logs', (fromDocument [] (.obj [("registry", .obj [("trace_level", .int 3), ("colour", .str "x")]),
        ("logging", .obj [("level", .str "DEBUG")])])).run.run #[] = (.ok s, logs') →
      s.Overrides {} [("registry", .obj [("trace_level", .int 3), ("colour", .str "x")]),
        ("logging", .obj [("level", .str "DEBUG")])] ∧
      logs' = #[] ++ (documentWarnings [("registry", .obj [("trace_level", .int 3), ("colour", .str "x")]),
        ("logging", .obj [("level", .str "DEBUG")])]).toArray := by
  have hshape : (Json.obj [("registry", .obj [("trace_level", .int 3), ("colour", .str "x")]),
      ("logging", .obj [("level", .str "DEBUG")])]).SettingsShaped :=
    ⟨fun v hv => ⟨_, (Option.some.inj hv).symm⟩, fun v hv => ⟨_, (Option.some.inj hv).symm⟩⟩
  have hfinite : ∀ m ∈ Json.groupMembers [("registry", .obj [("trace_level", .int 3), ("colour", .str "x")]),
      ("logging", .obj [("level", .str "DEBUG")])] "registry", ¬InfiniteForInt "registry" m := by
    rintro m hm ⟨f, x, neg, -, -, hx, -⟩
    have hmembers : Json.groupMembers [("registry", .obj [("trace_level", .int 3), ("colour", .str "x")]),
        ("logging", .obj [("level", .str "DEBUG")])] "registry" =
        ([("trace_level", .int 3), ("colour", .str "x")] : List (Text × Json)) := rfl
    rw [hmembers] at hm
    simp only [List.mem_cons, List.not_mem_nil, or_false] at hm
    rcases hm with rfl | rfl <;> cases hx
  exact ⟨hshape, hfinite, (document_overrides_environment [] {} rfl _ hshape hfinite #[]).1⟩

theorem document_fails_outside_configuration :
    (Settings.fromDocument [] (.obj [("registry", .obj [("trace_level", .float (1.0 / 0.0))])])).run.run
        #[] = (.error (.host .infinityToInt), #[]) ∧
    (Settings.fromDocument [("METADEP_TRACE_LEVEL", "abc")]
        (.obj [("registry", .obj [("colour", .str "x")])])).run.run #[] =
      (.error (.host (.badIntText "abc")), #[]) ∧
    ¬(Fault.host .infinityToInt).IsConfiguration ∧ ¬(Fault.host (.badIntText "abc")).IsConfiguration := by
  refine ⟨rfl, Settings.fromDocument_of_fromEnvironment_error rfl _ _, ?_, ?_⟩
  all_goals
    rintro ⟨p, hp⟩
    cases hp

end Invalidation