import GameLauncher.Flag.Usage

namespace GameLauncher

/-- A stretch of the command line that is read as one: the separator with all behind it, a flag
alone, a flag with its value, a flag whose value is missing at the end, or a token that is no flag. -/
inductive Segment
  | separator (rest : List String)
  | switch (s : Switch) (spelling : String)
  | valued (p : Parameter) (spelling value : String)
  | cut (p : Parameter) (spelling : String)
  | unknown (token : String)
  deriving DecidableEq

namespace Segment

/-- Cuts a command line from the left. A flag that takes a value takes the next token, whatever
it is. -/
def ofTokens : List String → List Segment
  | [] => []
  | t :: rest =>
    if t = GameLauncher.separator then [separator rest]
    else match Flag.ofSpelling? t with
      | none => unknown t :: ofTokens rest
      | some (.switch s) => switch s t :: ofTokens rest
      | some (.parameter p) => match rest with
        | [] => [cut p t]
        | v :: rest => valued p t v :: ofTokens rest

def tokens : Segment → List String
  | separator rest => GameLauncher.separator :: rest
  | switch _ t => [t]
  | valued _ t v => [t, v]
  | cut _ t => [t]
  | unknown t => [t]

theorem flatMap_tokens_ofTokens (ts : List String) : (ofTokens ts).flatMap tokens = ts := by
  fun_induction ofTokens ts <;> simp_all [tokens]

end Segment

end GameLauncher
