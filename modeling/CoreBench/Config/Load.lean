import CoreBench.Config.Environment
import CoreBench.Config.File

/-!
From a settings file and the environment to settings that can be used: read the
file, replace what the environment sets, check the result. Whichever way a
configuration comes about, it has passed the check.
-/

namespace CoreBench

inductive ConfigError where
  | unreadable (reason : String)
  | refused (error : Config.FileError)
  | environment (error : BadSetting)
  | unusable (issue : Issue)
  deriving DecidableEq, Repr

def ConfigError.message : ConfigError → String
  | unreadable reason => s!"failed to read configuration: {reason}"
  | refused error => s!"failed to parse configuration: {error.message}"
  | environment error => error.message
  | unusable issue => s!"validation error: {issue.message}"

namespace Config

def check (config : Config) : Except ConfigError Config :=
  match config.issue? with
  | some issue => .error (.unusable issue)
  | none => .ok config

/-- Replaces what the environment sets and checks the result. -/
def adapt (environment : Environment) (config : Config) : Except ConfigError Config :=
  match config.replaceFrom environment with
  | (.error error, _) => .error (.environment error)
  | (.ok (), config) => config.check

def parse (content : String) : Except ConfigError Config :=
  match ofFile content with
  | .error error => .error (.refused error)
  | .ok config => .ok config

def ofText (content : String) : Except ConfigError Config :=
  parse content >>= check

/-- The settings of a file, whose reading may have failed, in an environment. -/
def load (environment : Environment) (content : Except String String) : Except ConfigError Config :=
  match content with
  | .error reason => .error (.unreadable reason)
  | .ok content => parse content >>= adapt environment

def loadDefault (environment : Environment) : Except ConfigError Config :=
  adapt environment {}

end Config

end CoreBench
