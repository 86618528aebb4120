import FrontendAssets.Config.Override

/-!
# `FrontendAssets.Config.Basic`: the configuration of a router

A configuration says what takes the place of the bundle, under which path segment the frontend is
mounted, and how many files may be read at once. It is checked when it is made, and what was checked
stays with it: the mount is a single segment, and at least one file may be read.
-/

set_option autoImplicit false

namespace FrontendAssets

/-- The configuration of a router. The last three fields are what was checked when it was made, so a
router never meets a mount that is empty or has several segments. -/
structure Config where
  /-- What was given for the frontend, if anything was. -/
  frontend : Option Arguments.Value
  /-- The mount as it was given, with or without slashes around it. -/
  mount : Text
  /-- How many files may be read at once. -/
  readers : Int
  mount_ne_nil : Text.trim '/' mount ≠ []
  slash_not_mem_mount : '/' ∉ Text.trim '/' mount
  one_le_readers : 1 ≤ readers
  deriving DecidableEq

namespace Config

/-- Why a configuration is refused. The first three come from its own checks, the last one from
reading the arguments that name a frontend. -/
inductive Invalid where
  | emptyMount
  /-- The mount has more than one segment. -/
  | nestedMount (mount : Text)
  | tooFewReaders (readers : Int)
  /-- The command line could not be read. -/
  | arguments (fault : Arguments.Fault)
  deriving DecidableEq, Repr

/-- The complaint for a reader. Values are shown as they were given, with the slashes around a
mount. -/
def Invalid.message : Invalid → Text
  | .emptyMount => "bundled_path cannot be empty".toList
  | .nestedMount mount =>
    "bundled_path must be a single path segment, got: ".toList ++ Text.quoted mount
  | .tooFewReaders readers =>
    "max_file_readers must be at least 1, got: ".toList ++ Text.ofInt readers
  | .arguments fault => fault.message

/-- The mount where none is given. Nothing in it has to be escaped. -/
def defaultMount : Text := "bundled".toList

/-- The number of readers where none is given. -/
def defaultReaders : Int := 10

/-- What takes the place of the bundle. It is a function of what was given for the frontend, so two
configurations with the same frontend have the same override. -/
def override (c : Config) : Override := (Override.ofGiven c.frontend).value

/-- The mount as a segment with a slash behind it, with which every handled path begins. The slash
is part of it, so `bundledx` does not begin with the mount `bundled`. -/
def mountHead (c : Config) : Text := Text.trim '/' c.mount ++ ['/']

/-- Check and make a configuration. The first of two faults is reported: those of the mount come
before that of the readers, and a refused configuration classifies no frontend. -/
def make (frontend : Option Arguments.Value) (mount : Text) (readers : Int) :
    Except Invalid (Noted Config) :=
  if hempty : Text.trim '/' mount = [] then .error .emptyMount
  else if hslash : '/' ∈ Text.trim '/' mount then .error (.nestedMount mount)
  else if hreaders : readers < 1 then .error (.tooFewReaders readers)
  else
    .ok {
      value := ⟨frontend, mount, readers, hempty, hslash, by omega⟩
      notes := (Override.ofGiven frontend).notes }

/-- The configuration where nothing is given. It passes its own checks, which its fields carry. -/
def default : Config :=
  ⟨none, defaultMount, defaultReaders, by decide, by decide, by decide⟩

end Config

end FrontendAssets
