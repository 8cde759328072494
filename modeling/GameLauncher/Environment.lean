import GameLauncher.Failure

namespace GameLauncher

abbrev Environment := List (String × String)

namespace Environment

def get? (env : Environment) (name : String) : Option String := env.lookup name

def put (env : Environment) (name value : String) : Environment :=
  match env with
  | [] => [(name, value)]
  | e :: r => if e.1 = name then (name, value) :: r else e :: put r name value

/-- The home directory without slashes at its end. Nobody's home begins with a tilde. -/
def home (env : Environment) : Except Failure Path :=
  match env.get? "HOME" with
  | none => .error .noHome
  | some s =>
    let trimmed := (s.toList.reverse.dropWhile (· = '/')).reverse
    match trimmed with
    | [] => .ok ⟨.root, []⟩
    | '~' :: _ => .error .noHome
    | cs => .ok (Path.ofString (String.ofList cs))

end Environment

end GameLauncher
