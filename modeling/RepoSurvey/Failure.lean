/-!
What can go wrong: the failures of the file system, the failures of a survey, how grave each is and
what is said about it.
-/

namespace RepoSurvey

/-- The kinds of file system failure that matter to a survey. -/
inductive IoKind where
  | notFound | permissionDenied | invalidData | alreadyExists | other
  deriving Repr, DecidableEq

/-- What is said of a failure of which only the kind is known. -/
def IoKind.text : IoKind → String
  | .notFound => "entity not found"
  | .permissionDenied => "permission denied"
  | .invalidData => "invalid data"
  | .alreadyExists => "entity already exists"
  | .other => "other error"

def systemTexts : List (Nat × String) :=
  [(0, "Success"), (1, "Operation not permitted"), (2, "No such file or directory"),
    (3, "No such process"), (4, "Interrupted system call"), (5, "Input/output error"),
    (6, "No such device or address"), (7, "Argument list too long"), (8, "Exec format error"),
    (9, "Bad file descriptor"), (10, "No child processes"),
    (11, "Resource temporarily unavailable"), (12, "Cannot allocate memory"),
    (13, "Permission denied"), (14, "Bad address"), (15, "Block device required"),
    (16, "Device or resource busy"), (17, "File exists"), (18, "Invalid cross-device link"),
    (19, "No such device"), (20, "Not a directory"), (21, "Is a directory"),
    (22, "Invalid argument"), (23, "Too many open files in system"), (24, "Too many open files"),
    (25, "Inappropriate ioctl for device"), (26, "Text file busy"), (27, "File too large"),
    (28, "No space left on device"), (29, "Illegal seek"), (30, "Read-only file system"),
    (31, "Too many links"), (32, "Broken pipe"), (33, "Numerical argument out of domain"),
    (34, "Numerical result out of range"), (35, "Resource deadlock avoided"),
    (36, "File name too long"), (37, "No locks available"), (38, "Function not implemented"),
    (39, "Directory not empty"), (40, "Too many levels of symbolic links"),
    (42, "No message of desired type"), (43, "Identifier removed"),
    (44, "Channel number out of range"), (45, "Level 2 not synchronized"), (46, "Level 3 halted"),
    (47, "Level 3 reset"), (48, "Link number out of range"), (49, "Protocol driver not attached"),
    (50, "No CSI structure available"), (51, "Level 2 halted"), (52, "Invalid exchange"),
    (53, "Invalid request descriptor"), (54, "Exchange full"), (55, "No anode"),
    (56, "Invalid request code"), (57, "Invalid slot"), (59, "Bad font file format"),
    (60, "Device not a stream"), (61, "No data available"), (62, "Timer expired"),
    (63, "Out of streams resources"), (64, "Machine is not on the network"),
    (65, "Package not installed"), (66, "Object is remote"), (67, "Link has been severed"),
    (68, "Advertise error"), (69, "Srmount error"), (70, "Communication error on send"),
    (71, "Protocol error"), (72, "Multihop attempted"), (73, "RFS specific error"),
    (74, "Bad message"), (75, "Value too large for defined data type"),
    (76, "Name not unique on network"), (77, "File descriptor in bad state"),
    (78, "Remote address changed"), (79, "Can not access a needed shared library"),
    (80, "Accessing a corrupted shared library"), (81, ".lib section in a.out corrupted"),
    (82, "Attempting to link in too many shared libraries"),
    (83, "Cannot exec a shared library directly"),
    (84, "Invalid or incomplete multibyte or wide character"),
    (85, "Interrupted system call should be restarted"), (86, "Streams pipe error"),
    (87, "Too many users"), (88, "Socket operation on non-socket"),
    (89, "Destination address required"), (90, "Message too long"),
    (91, "Protocol wrong type for socket"), (92, "Protocol not available"),
    (93, "Protocol not supported"), (94, "Socket type not supported"),
    (95, "Operation not supported"), (96, "Protocol family not supported"),
    (97, "Address family not supported by protocol"), (98, "Address already in use"),
    (99, "Cannot assign requested address"), (100, "Network is down"),
    (101, "Network is unreachable"), (102, "Network dropped connection on reset"),
    (103, "Software caused connection abort"), (104, "Connection reset by peer"),
    (105, "No buffer space available"), (106, "Transport endpoint is already connected"),
    (107, "Transport endpoint is not connected"),
    (108, "Cannot send after transport endpoint shutdown"),
    (109, "Too many references: cannot splice"), (110, "Connection timed out"),
    (111, "Connection refused"), (112, "Host is down"), (113, "No route to host"),
    (114, "Operation already in progress"), (115, "Operation now in progress"),
    (116, "Stale file handle"), (117, "Structure needs cleaning"),
    (118, "Not a XENIX named type file"), (119, "No XENIX semaphores available"),
    (120, "Is a named type file"), (121, "Remote I/O error"), (122, "Disk quota exceeded"),
    (123, "No medium found"), (124, "Wrong medium type"), (125, "Operation canceled"),
    (126, "Required key not available"), (127, "Key has expired"), (128, "Key has been revoked"),
    (129, "Key was rejected by service"), (130, "Owner died"), (131, "State not recoverable"),
    (132, "Operation not possible due to RF-kill"), (133, "Memory page has hardware error")]

/-- A failure of the file system. -/
inductive IoError where
  | system (number : Nat)
  /-- A failure of a kind, with words of its own if it has any. -/
  | described (kind : IoKind) (text : Option String)
  deriving Repr, DecidableEq

namespace IoError

def message : IoError → String
  | system n =>
    let text := (systemTexts.lookup n).getD s!"Unknown error {n}"
    s!"{text} (os error {n})"
  | described kind text => text.getD kind.text

/-- Whether access was refused: error numbers 1 and 13 say so. -/
def isPermissionDenied : IoError → Bool
  | system n => n == 1 || n == 13
  | described kind _ => kind == .permissionDenied

def noEntry : IoError := system 2
/-- A step leads through something that is no directory. -/
def notDirectory : IoError := system 20
def isDirectory : IoError := system 21
def nameTooLong : IoError := system 36
/-- Too many links were followed. -/
def tooManyLinks : IoError := system 40

end IoError

/-- How grave a failure is. -/
inductive Severity where
  /-- The survey goes on without the file. -/
  | warning
  | error
  | critical
  deriving Repr, DecidableEq

def Severity.label : Severity → String
  | warning => "WARNING"
  | error => "ERROR"
  | critical => "CRITICAL"

/-- Everything that can go wrong in a survey. Paths are kept as they are shown. -/
inductive Failure where
  | io (source : IoError)
  /-- The root is missing or no directory. -/
  | invalidPath (path : String)
  /-- A directory below the root cannot be resolved or listed. -/
  | directoryRead (path : String) (source : IoError)
  | fileRead (path message : String)
  /-- A source file has no syntax tree. -/
  | parse (path message : String)
  | parser (message : String)
  /-- A setting has no sense. -/
  | config (message : String)
  | permissionDenied (path : String)
  /-- A text is not in the format of configuration files. -/
  | tomlParse (source : String)
  | csv (source : String)
  /-- The named configuration file does not exist. -/
  | configNotFound (path : String)
  | configRead (path : String) (source : IoError)
  /-- A configuration file is not well formed. -/
  | configParse (path source : String)
  | outputWrite (path : String) (source : IoError)
  | stdoutWrite (source : IoError)
  /-- A failure to which an account of what was being done is attached. -/
  | analysis (message : String)
  | parallelExecution (message : String)
  /-- A result cannot be written as or read from its data format. -/
  | jsonSerialize (source : String)
  /-- An edge list is not valid text. -/
  | csvSerialize (source : String)
  /-- The directory for an output file does not exist. -/
  | outputDirectoryNotFound (path : String)
  deriving Repr, DecidableEq

namespace Failure

def message : Failure → String
  | io source => s!"IO error: {source.message}"
  | invalidPath path => s!"Invalid path: {path}"
  | directoryRead path source => s!"Failed to read directory {path}: {source.message}"
  | fileRead path message => s!"Failed to read file {path}: {message}"
  | parse path message => s!"Syntax error in {path}: {message}"
  | parser message => s!"Parser setup failed: {message}"
  | config message => s!"Configuration error: {message}"
  | permissionDenied path => s!"Permission denied accessing {path}"
  | tomlParse source => s!"TOML parsing error: {source}"
  | csv source => s!"CSV error: {source}"
  | configNotFound path => s!"Configuration file not found at {path}"
  | configRead path source => s!"Error reading configuration file {path}: {source.message}"
  | configParse path source => s!"Error parsing configuration file {path}: {source}"
  | outputWrite path source => s!"Error writing to output file {path}: {source.message}"
  | stdoutWrite source => s!"Error writing to stdout: {source.message}"
  | analysis message => s!"Analysis error: {message}"
  | parallelExecution message => s!"Parallel execution error: {message}"
  | jsonSerialize source => s!"JSON serialization error: {source}"
  | csvSerialize source => s!"CSV serialization error: {source}"
  | outputDirectoryNotFound path => s!"Output directory not found: {path}"

/-- How grave a failure is. What concerns one file is a warning, and what makes the root, the
configuration or the output unusable is critical. -/
def severity : Failure → Severity
  | fileRead .. | parse .. | permissionDenied .. => .warning
  | invalidPath .. | directoryRead .. | parser .. | config .. | configNotFound .. | configRead ..
  | configParse .. | stdoutWrite .. | outputDirectoryNotFound .. => .critical
  | io .. | tomlParse .. | csv .. | outputWrite .. | analysis .. | parallelExecution ..
  | jsonSerialize .. | csvSerialize .. => .error

def isCritical (e : Failure) : Bool := e.severity == .critical

/-- What a user is told about a failure, with advice where there is some. -/
def userMessage : Failure → String
  | invalidPath path =>
    s!"Invalid path: '{path}'. Please provide an existing repository directory."
  | directoryRead path source =>
    s!"Cannot list directory '{path}': {source.message}. Check that it exists and is readable."
  | permissionDenied path =>
    s!"Cannot access '{path}' due to permission denied. Check file permissions."
  | fileRead path message => s!"Skipping '{path}': {message}"
  | parse path _ => s!"'{path}' has syntax errors; no imports extracted."
  | io source => s!"File system error: {source.message}. Check disk space and permissions."
  | configNotFound path =>
    s!"Configuration file not found at '{path}'. Create one with --init or use command line options."
  | outputDirectoryNotFound path =>
    s!"Output directory '{path}' does not exist. Please create the directory or specify a different output path."
  | e => e.message

/-- What is said of the failure beneath this one, if there is one. -/
def source? : Failure → Option String
  | io source | directoryRead _ source | configRead _ source | outputWrite _ source
  | stdoutWrite source => some source.message
  | tomlParse source | csv source | configParse _ source | jsonSerialize source
  | csvSerialize source => some source
  | _ => none

def exitStatus (e : Failure) : Nat :=
  match e.severity with
  | .warning => 0
  | .error => 1
  | .critical => 2

/-- The failure of a reader that was used on the file at `path`. -/
def ofFile (path : String) (e : IoError) : Failure :=
  if e.isPermissionDenied then permissionDenied path else fileRead path e.message

/-- A failure, described by `text`, with an account of what was being done. -/
def withContext (context text : String) : Failure := analysis s!"{context}: {text}"

/-- Goes on with nothing after any failure but a critical one. -/
def recover {α : Type} : Except Failure α → Except Failure (Option α)
  | .ok a => .ok (some a)
  | .error e => if e.isCritical then .error e else .ok none

end Failure

/-- Why a text is no natural number below a bound. -/
inductive NumeralError where
  | empty | invalidDigit | tooLarge
  deriving Repr, DecidableEq

/-- What is said of a text that is no number. -/
def NumeralError.message : NumeralError → String
  | empty => "cannot parse integer from empty string"
  | invalidDigit => "invalid digit found in string"
  | tooLarge => "number too large to fit in target type"

/-- The number below `bound` that decimal digits write, after the digits that wrote `value`. The
first fault from the left counts. -/
def readDigits (bound value : Nat) : List Char → Except NumeralError Nat
  | [] => .ok value
  | c :: rest =>
    if c.isDigit then
      let value := value * 10 + (c.toNat - '0'.toNat)
      if value < bound then readDigits bound value rest else .error .tooLarge
    else .error .invalidDigit

/-- The number below `bound` that a text writes in decimal digits, one plus sign before them
allowed. -/
def readNatural (bound : Nat) (s : String) : Except NumeralError Nat :=
  match s.toList with
  | [] => .error .empty
  | ['+'] => .error .invalidDigit
  | '+' :: digits => readDigits bound 0 digits
  | digits => readDigits bound 0 digits

end RepoSurvey
