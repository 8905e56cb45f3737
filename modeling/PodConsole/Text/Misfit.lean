namespace PodConsole.Text

inductive Misfit where
  | kind (found wanted : String)
  | value (found wanted : String)
  deriving DecidableEq, Repr

def Misfit.message : Misfit → String
  | .kind found wanted => "invalid type: " ++ found ++ ", expected " ++ wanted
  | .value found wanted => "invalid value: " ++ found ++ ", expected " ++ wanted

def ticked (text : String) : String :=
  "\x60" ++ text ++ "\x60"

end PodConsole.Text
