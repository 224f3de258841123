import Invalidation.Json.Basic

namespace Invalidation

-- How much a logged line matters.
inductive Level where
  | debug
  | info
  | warning
deriving Repr, DecidableEq

def Level.name : Level → String
  | .debug => "DEBUG"
  | .info => "INFO"
  | .warning => "WARNING"

-- The part of the program that logs a line.
inductive Source where
  | listeners
  | graph
  | registry
  | dispatcher
  | settings
  | builder
deriving Repr, DecidableEq

def Source.name : Source → String
  | .listeners => "metadep.dependencies.listeners"
  | .graph => "metadep.dependencies.graph"
  | .registry => "metadep.dependencies.registry"
  | .dispatcher => "metadep.dependencies.dispatcher"
  | .settings => "metadep.bootstrap.config"
  | .builder => "metadep.bootstrap.app"

structure LogLine where
  level : Level
  source : Source
  text : Text

def LogLine.toJson (l : LogLine) : Json := .arr [.str l.level.name, .str l.source.name, .str l.text]

end Invalidation
