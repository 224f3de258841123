import Invalidation.Settings.Basic
import Invalidation.Settings.Coerce
import Invalidation.Registry.Basic

namespace Invalidation

namespace Settings

def build (s : Settings) (scheme : Scheme) : Loading Registry := do
  Loading.lift s.validate
  let r := s.registry
  let journal ← if r.record then
      if Journal.maxCapacity < r.journalSize then throw (.host .capacityTooLarge)
      else pure (some (Journal.new r.journalSize.toNat (.int r.journalSize)))
    else pure none
  let reg ← Loading.lift (Registry.new scheme (r.maxDepth.map .int) (.int r.traceLevel) journal)
  let depthText := match r.maxDepth with
    | some m => toString m
    | none => "None"
  Loading.log ⟨.info, .builder, Text.ofString "Metadata dependency registry built (" ++
    s.environment.display ++ "): trace=" ++ toString r.traceLevel ++ ", max_depth=" ++ depthText ++
    ", recording=" ++ (if journal.isSome then "on" else "off")⟩
  pure reg

end Settings

end Invalidation
