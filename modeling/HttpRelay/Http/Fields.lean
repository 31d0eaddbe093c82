import HttpRelay.Text.Blank

namespace HttpRelay

abbrev Fields := List (String × String)

namespace Fields

def first? (fs : Fields) (name : String) : Option String :=
  (fs.find? fun f => Text.sameName f.1 name).map (·.2)

def values (fs : Fields) (name : String) : List String :=
  (fs.filter fun f => Text.sameName f.1 name).map (·.2)

def has (fs : Fields) (name : String) : Bool := fs.any fun f => Text.sameName f.1 name

end Fields

end HttpRelay
