/-! Lines of a log, plain and coloured by their level. -/
namespace UrlRouting

structure LogLine where
  level : String
  message : String
  deriving DecidableEq, Repr

namespace LogLine

def debug (message : String) : LogLine :=
  ⟨"DEBUG", message⟩

def plain (l : LogLine) : String :=
  l.level ++ " " ++ l.message

def escapeCode (code : Nat) : String :=
  "\x1b[" ++ toString code ++ "m"

def reset : String := escapeCode 0

/-- The colour of a level: cyan, green, yellow, red, bright red, and white for any other. -/
def color (level : String) : String :=
  match level with
  | "DEBUG" => escapeCode 36
  | "INFO" => escapeCode 32
  | "WARNING" => escapeCode 33
  | "ERROR" => escapeCode 31
  | "CRITICAL" => escapeCode 37 ++ escapeCode 1 ++ escapeCode 31
  | _ => escapeCode 37

/-- Messages begin in one column, unless a level is longer than this. -/
def levelWidth : Nat := 8

/-- The level in brackets and in its colour, and then the message. -/
def colored (l : LogLine) : String :=
  let pad := "".pushn ' ' (levelWidth - l.level.length)
  "[" ++ color l.level ++ l.level ++ reset ++ "]" ++ pad ++ " " ++ l.message

end LogLine

end UrlRouting
