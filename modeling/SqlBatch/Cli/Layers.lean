import SqlBatch.Cli.Arguments

/-! Settings in layers: what a call gives goes over what the configuration file sets, and that over
the defaults. A flag only ever adds its effect; it cannot take back what the file sets. -/

namespace SqlBatch.Cli

/-- The settings of a call over those of its configuration file. -/
def Given.over (g : Given) (c : Config) : Config where
  backend := g.backend.getD c.backend
  username := g.user <|> c.username
  password := g.password <|> c.password
  host := g.host.getD c.host
  port := g.port <|> c.port
  database := g.database <|> c.database
  verbosity := g.verbosity.getD c.verbosity
  force := c.force && !g.noForce.getD false
  serial := c.serial || g.serial.getD false
  setDb := c.setDb || g.setDb.getD false
  secure := c.secure || g.secure.getD false

abbrev Chain := List String

def loadFailed (path : String) (f : Failure) : Chain :=
  ("failed to load configuration from " ++ path) :: f.chain

def Given.base (g : Given) (read : String → Except FileProblem (List UInt8)) :
    Except Chain Config :=
  match g.config with
  | none => .ok {}
  | some path =>
    match read path with
    | .error p => .error (loadFailed path (.io p))
    | .ok bytes => (Config.ofBytes bytes).mapError (loadFailed path)

def Call.settings (c : Call) (read : String → Except FileProblem (List UInt8)) :
    Except Chain Config :=
  (c.given.base read).map c.given.over

end SqlBatch.Cli
