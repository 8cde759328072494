import GameLauncher.Library.Layout
import GameLauncher.Record

namespace GameLauncher

structure Splash where
  path : Path
  size : Image.Size
  deriving DecidableEq

namespace Splash

def ignore (p : Path) (reason : String) : Traced (Option Splash) :=
  ⟨[⟨.warning, .utils, s!"Ignoring unreadable splash {p.text}: {reason}"⟩], .ok none⟩

/-- The picture in a game's folder, if there is one that is readable and not empty. -/
def probe (fs : FileSystem) (folder : Path) : Traced (Option Splash) :=
  let p := Library.splashIn folder
  match fs.isFile p with
  | .error f => .fail f
  | .ok false => .ofExcept (.ok none)
  | .ok true => match fs.read p with
    | .error (.system e path) => ignore p (e.message path)
    | .error f => .fail f
    | .ok bytes => match fs.host.pictureSize? bytes with
      | none => ignore p "unreadable image"
      | some size =>
        if maxPixels < size.pixels then .fail (.hugeImage size.pixels)
        else if size.width ≤ 0 || size.height ≤ 0 then .ofExcept (.ok none)
        else .ofExcept (.ok (some ⟨p, size⟩))

end Splash

end GameLauncher
