import Deployment.Decimal.Digits

namespace Deployment.Host

inductive IoErrorKind where
  | notFound
  | permissionDenied
  | alreadyExists
  | notADirectory
  | isADirectory
  | invalidFilename
  | invalidInput
  | invalidData
  | timedOut
  | interrupted
  | unsupported
  | other
  | uncategorized
  deriving DecidableEq

def IoErrorKind.message : IoErrorKind → String
  | .notFound => "entity not found"
  | .permissionDenied => "permission denied"
  | .alreadyExists => "entity already exists"
  | .notADirectory => "not a directory"
  | .isADirectory => "is a directory"
  | .invalidFilename => "invalid filename"
  | .invalidInput => "invalid input parameter"
  | .invalidData => "invalid data"
  | .timedOut => "timed out"
  | .interrupted => "operation interrupted"
  | .unsupported => "unsupported"
  | .other => "other error"
  | .uncategorized => "uncategorized error"

inductive SystemError where
  | noSuchFile
  | notExecutable
  | permissionDenied
  | fileExists
  | notDirectory
  | isDirectory
  | nameTooLong
  deriving DecidableEq

namespace SystemError

def number : SystemError → Nat
  | .noSuchFile => 2
  | .notExecutable => 8
  | .permissionDenied => 13
  | .fileExists => 17
  | .notDirectory => 20
  | .isDirectory => 21
  | .nameTooLong => 36

def text : SystemError → String
  | .noSuchFile => "No such file or directory"
  | .notExecutable => "Exec format error"
  | .permissionDenied => "Permission denied"
  | .fileExists => "File exists"
  | .notDirectory => "Not a directory"
  | .isDirectory => "Is a directory"
  | .nameTooLong => "File name too long"

def kind : SystemError → IoErrorKind
  | .noSuchFile => .notFound
  | .notExecutable => .uncategorized
  | .permissionDenied => .permissionDenied
  | .fileExists => .alreadyExists
  | .notDirectory => .notADirectory
  | .isDirectory => .isADirectory
  | .nameTooLong => .invalidFilename

end SystemError

inductive IoError where
  | system (error : SystemError)
  | plain (kind : IoErrorKind)
  | nulInFileName
  | nulInCommand
  | notText
  | namesExhausted
  deriving DecidableEq

namespace IoError

def kind : IoError → IoErrorKind
  | .system e => e.kind
  | .plain k => k
  | .nulInFileName => .invalidInput
  | .nulInCommand => .invalidInput
  | .notText => .invalidData
  | .namesExhausted => .alreadyExists

def message : IoError → String
  | .system e => e.text ++ " (os error " ++ Decimal.ofNat e.number ++ ")"
  | .plain k => k.message
  | .nulInFileName => "file name contained an unexpected NUL byte"
  | .nulInCommand => "nul byte found in provided data"
  | .notText => "stream did not contain valid UTF-8"
  | .namesExhausted => "too many temporary files exist"

end IoError

end Deployment.Host
