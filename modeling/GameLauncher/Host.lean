import GameLauncher.Image.Size
import GameLauncher.Toml.Stack

namespace GameLauncher

/-- What the machine that keeps a tree of files brings along: the size that it finds in the header of
a picture, if it knows the bytes for one, and the room it has for values inside one another. -/
structure Host where
  pictureSize? : Bytes → Option Image.Size
  stack : Toml.Stack

def Host.standard : Host := ⟨Image.size?, .standard⟩

end GameLauncher
