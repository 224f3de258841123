import Invalidation.Proofs.DocumentText
import Invalidation.Proofs.Loading

namespace Invalidation

-- A loading computation gives `a` and logs nothing, whatever was logged before.
def Loading.Gives {α : Type} (m : Loading α) (a : α) : Prop :=
  ∀ logs, m.run.run logs = (.ok a, logs)

namespace Loading

variable {α β : Type}

theorem gives_pure (a : α) : (pure a : Loading α).Gives a := fun _ => rfl

theorem gives_bind {m : Loading α} {k : α → Loading β} {a : α} {b : β} (hm : m.Gives a)
    (hk : (k a).Gives b) : (m >>= k).Gives b := by
  intro logs
  simp only [ExceptT.run_bind, StateT.run_bind, hm logs]
  exact hk logs

theorem gives_lift {x : Except Fault α} {a : α} (h : x = .ok a) : (lift x).Gives a := by
  subst h
  exact fun _ => rfl

end Loading

theorem Disk.Folder.isPresent_of_read {folder : Disk.Folder} {path t : Text} (h : folder.read path = .ok t) :
    folder.isPresent path = .ok true := by
  unfold Disk.Folder.read at h
  unfold Disk.Folder.isPresent
  cases hl : folder.locate path with
  | error e =>
    rw [hl] at h
    cases h
  | ok sp =>
    rw [hl] at h
    cases sp <;> first | rfl | cases h

namespace Settings

theorem setGroup_cons_gives {group k : String} {key : Text} {f : Field} {v : Json}
    {s s' r : Settings} {rest : List (Text × Json)}
    (hkey : key.toString? = some k ∧ Field.findText? group key = some f)
    (hset : s.set group k f v = .ok s') (hrest : (s'.setGroup group rest).Gives r) :
    (s.setGroup group ((key, v) :: rest)).Gives r := by
  rw [setGroup, hkey.1, hkey.2]
  exact Loading.gives_bind (Loading.gives_lift hset) hrest

theorem set_maxDepth (s : Settings) (md : Option Int) :
    s.set "registry" "max_depth" .maxDepth (optionalInt md) =
      .ok { s with registry := { s.registry with maxDepth := md } } := by
  cases md <;> rfl

theorem set_logFile (s : Settings) (lf : Option Text) :
    s.set "logging" "log_file" .logFile (Json.ofOption lf) =
      .ok { s with logging := { s.logging with logFile := lf } } := by
  cases lf <;> rfl

theorem setGroup_registry (s : Settings) (r : RegistrySettings) :
    (s.setGroup "registry" [("trace_level", .int r.traceLevel),
      ("max_depth", optionalInt r.maxDepth), ("record_notifications", .bool r.record),
      ("notification_log_size", .int r.journalSize)]).Gives { s with registry := r } := by
  obtain ⟨t, md, rec, js⟩ := r
  refine setGroup_cons_gives (k := "trace_level") (f := .traceLevel) (by decide) rfl ?_
  refine setGroup_cons_gives (k := "max_depth") (f := .maxDepth) (by decide)
    (set_maxDepth _ md) ?_
  refine setGroup_cons_gives (k := "record_notifications") (f := .record) (by decide) rfl ?_
  refine setGroup_cons_gives (k := "notification_log_size") (f := .journalSize) (by decide) rfl ?_
  exact Loading.gives_pure _

theorem setGroup_logging (s : Settings) (g : LoggingSettings) :
    (s.setGroup "logging" [("level", .str g.level), ("format", .str g.format),
      ("log_file", Json.ofOption g.logFile)]).Gives { s with logging := g } := by
  obtain ⟨lv, fmt, lf⟩ := g
  refine setGroup_cons_gives (k := "level") (f := .level) (by decide) rfl ?_
  refine setGroup_cons_gives (k := "format") (f := .format) (by decide) rfl ?_
  refine setGroup_cons_gives (k := "log_file") (f := .logFile) (by decide)
    (set_logFile _ lf) ?_
  exact Loading.gives_pure _

theorem fromDocument_toJson {env : Environment} {s₀ : Settings} (henv : fromEnvironment env = .ok s₀)
    (c : Settings) : (fromDocument env c.toJson).Gives c := by
  unfold fromDocument
  refine Loading.gives_bind (Loading.gives_lift henv) ?_
  -- the document has an environment member, then the two groups
  refine Loading.gives_bind (Loading.gives_lift (a := true) rfl) ?_
  dsimp only
  rw [if_pos rfl]
  refine Loading.gives_bind (Loading.gives_lift (a := c.environment) rfl) ?_
  refine Loading.gives_bind (Loading.gives_pure _) ?_
  refine Loading.gives_bind (Loading.gives_lift rfl) ?_
  refine Loading.gives_bind (setGroup_registry _ c.registry) ?_
  refine Loading.gives_bind (Loading.gives_lift rfl) ?_
  exact setGroup_logging _ c.logging

theorem fromEnvironment_ok_of_fromDocument {env : Environment} {d : Json} {s : Settings}
    {logs logs' : Array LogLine} (h : (fromDocument env d).run.run logs = (.ok s, logs')) :
    ∃ s₀, fromEnvironment env = .ok s₀ := by
  cases henv : fromEnvironment env with
  | ok s₀ => exact ⟨s₀, rfl⟩
  | error f =>
    unfold fromDocument at h
    simp only [henv, Loading.lift, ExceptT.run_bind] at h
    cases h

theorem fromDocument_of_fromEnvironment_error {env : Environment} {f : Fault}
    (henv : fromEnvironment env = .error f) (d : Json) (logs : Array LogLine) :
    (fromDocument env d).run.run logs = (.error f, logs) := by
  unfold fromDocument
  simp only [henv, Loading.lift, ExceptT.run_bind]
  rfl

-- Settings whose document reads back from its text: the environment is a plain document, the
-- integer settings have at most `maxIntDigits` digits, and the texts are plain.
structure Plain (c : Settings) : Prop where
  environment : c.environment.Plain
  traceLevel : (Nat.toDigits 10 c.registry.traceLevel.natAbs).length ≤ Text.maxIntDigits
  maxDepth : ∀ m ∈ c.registry.maxDepth, (Nat.toDigits 10 m.natAbs).length ≤ Text.maxIntDigits
  journalSize : (Nat.toDigits 10 c.registry.journalSize.natAbs).length ≤ Text.maxIntDigits
  level : c.logging.level.Plain
  format : c.logging.format.Plain
  logFile : ∀ f ∈ c.logging.logFile, f.Plain

theorem Plain.toJson {c : Settings} (hc : c.Plain) : c.toJson.Plain := by
  -- each object of the document has fixed names for keys and plain values
  have hregistry : (Json.obj [("trace_level", .int c.registry.traceLevel),
      ("max_depth", optionalInt c.registry.maxDepth),
      ("record_notifications", .bool c.registry.record),
      ("notification_log_size", .int c.registry.journalSize)]).Plain := by
    refine Json.Plain.obj_of_map (by simp only [List.map_cons, List.map_nil]; decide)
      (by simp only [List.map_cons, List.map_nil]; decide) ?_
    simp only [List.map_cons, List.map_nil, List.mem_cons, List.not_mem_nil, or_false]
    rintro v (rfl | rfl | rfl | rfl)
    · exact .int hc.traceLevel
    · cases hmd : c.registry.maxDepth with
      | none => exact .null
      | some d => exact .int (hc.maxDepth d hmd)
    · exact .bool _
    · exact .int hc.journalSize
  have hlogging : (Json.obj [("level", .str c.logging.level), ("format", .str c.logging.format),
      ("log_file", Json.ofOption c.logging.logFile)]).Plain := by
    refine Json.Plain.obj_of_map (by simp only [List.map_cons, List.map_nil]; decide)
      (by simp only [List.map_cons, List.map_nil]; decide) ?_
    simp only [List.map_cons, List.map_nil, List.mem_cons, List.not_mem_nil, or_false]
    rintro v (rfl | rfl | rfl)
    · exact .str hc.level
    · exact .str hc.format
    · cases hlf : c.logging.logFile with
      | none => exact .null
      | some f => exact .str (hc.logFile f hlf)
  refine Json.Plain.obj_of_map (by simp only [List.map_cons, List.map_nil]; decide)
    (by simp only [List.map_cons, List.map_nil]; decide) ?_
  simp only [List.map_cons, List.map_nil, List.mem_cons, List.not_mem_nil, or_false]
  rintro v (rfl | rfl | rfl)
  exacts [hc.environment, hregistry, hlogging]

theorem fromFile_toJson {env : Environment} {s₀ : Settings} (henv : fromEnvironment env = .ok s₀)
    {c : Settings} (hc : c.Plain) {folder : Disk.Folder} {path : Text}
    (hread : folder.read path = .ok (Text.ofString (Json.render c.toJson))) :
    (fromFile folder env path).Gives c := by
  have htext : String.ofList ((Text.ofString (Json.render c.toJson)).codes.map Char.ofNat) =
      Json.render c.toJson := by
    simp [Text.ofString, Function.comp_def]
  unfold fromFile
  -- the path is there, its text is read, and it is the text of a plain document
  refine Loading.gives_bind (Loading.gives_lift (a := true)
    (by rw [Disk.Folder.isPresent_of_read hread]; rfl)) ?_
  rw [if_neg (by decide)]
  refine Loading.gives_bind (Loading.gives_lift (a := Text.ofString (Json.render c.toJson))
    (by rw [hread]; rfl)) ?_
  rw [htext, Json.read_render hc.toJson]
  exact fromDocument_toJson henv c

theorem document_round_trip (env : Environment) (c : Settings) :
    ((fromDocument env c.toJson).Gives c ↔ ∃ s₀, fromEnvironment env = .ok s₀) ∧
    (c.Plain → ∀ s₀, fromEnvironment env = .ok s₀ → ∀ (folder : Disk.Folder) (path : Text),
      folder.read path = .ok (Text.ofString (Json.render c.toJson)) →
      (fromFile folder env path).Gives c) ∧
    (∀ (d : Json) (logs logs' : Array LogLine), (fromDocument env d).run.run logs = (.ok c, logs') →
      (fromDocument env c.toJson).Gives c) := by
  refine ⟨⟨fun h => fromEnvironment_ok_of_fromDocument (h #[]), fun ⟨s₀, henv⟩ =>
    fromDocument_toJson henv c⟩, fun hc s₀ henv _ _ hread => fromFile_toJson henv hc hread,
    fun d logs logs' h => ?_⟩
  -- a document that gives settings was read on top of an environment that reads
  obtain ⟨s₀, henv⟩ := fromEnvironment_ok_of_fromDocument h
  exact fromDocument_toJson henv c

theorem document_round_trip_defaults :
    (fromDocument [] ({} : Settings).toJson).Gives {} ∧
    (fromFile (.single "metadep.json" (Text.ofString (Json.render ({} : Settings).toJson))) []
      "metadep.json").Gives {} := by
  have hplain : ({} : Settings).Plain :=
    ⟨.str (by decide), by decide, by decide, by decide, by decide, by decide, by decide⟩
  have h := document_round_trip [] {}
  exact ⟨h.1.2 ⟨_, rfl⟩, h.2.1 hplain _ rfl _ _ rfl⟩

theorem document_round_trip_needs_environment :
    ¬(fromDocument [("METADEP_TRACE_LEVEL", "abc")] ({} : Settings).toJson).Gives {} := by
  intro h
  have h' := h #[]
  rw [fromDocument_of_fromEnvironment_error (f := .host (.badIntText "abc")) rfl] at h'
  cases h'

end Settings

end Invalidation
