/-!
What goes wrong below the library: a kind that callers decide on and a text that people read.
-/

namespace ChunkStore

set_option autoImplicit false

inductive IoErrorKind
  | notFound
  | permissionDenied
  | alreadyExists
  | notADirectory
  | isADirectory
  | directoryNotEmpty
  | filesystemLoop
  | invalidInput
  | invalidData
  | invalidFilename
  | resourceBusy
  | timedOut
  | interrupted
  | unexpectedEnd
  | other
  /-- A kind that no rule of the library looks at, by its name. -/
  | further (name : String)
deriving DecidableEq, Repr

namespace IoErrorKind

def named : List (String × IoErrorKind) :=
  [("NotFound", notFound), ("PermissionDenied", permissionDenied),
   ("AlreadyExists", alreadyExists), ("NotADirectory", notADirectory),
   ("IsADirectory", isADirectory), ("DirectoryNotEmpty", directoryNotEmpty),
   ("FilesystemLoop", filesystemLoop), ("InvalidInput", invalidInput),
   ("InvalidData", invalidData), ("InvalidFilename", invalidFilename),
   ("ResourceBusy", resourceBusy), ("TimedOut", timedOut), ("Interrupted", interrupted),
   ("UnexpectedEof", unexpectedEnd), ("Other", other)]

def name : IoErrorKind → String
  | further name => name
  | kind => ((named.find? fun entry => entry.2 == kind).map (·.1)).getD ""

def ofName (name : String) : IoErrorKind := (named.lookup name).getD (further name)

end IoErrorKind

structure IoError where
  kind : IoErrorKind
  text : String
deriving DecidableEq, Repr

namespace IoError

def notFound (text : String) : IoError := ⟨.notFound, text⟩

def alreadyExists (text : String) : IoError := ⟨.alreadyExists, text⟩

def unexpectedEnd (text : String) : IoError := ⟨.unexpectedEnd, text⟩

def other (text : String) : IoError := ⟨.other, text⟩

/-- A call that met an interruption may be made again. -/
def isInterruption (error : IoError) : Bool := error.kind == .interrupted

end IoError

end ChunkStore
