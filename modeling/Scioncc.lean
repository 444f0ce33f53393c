import Scioncc.Persist.Schema
import Scioncc.Persist.Container
import Scioncc.Persist.Extend
import Scioncc.Persist.Capacity
import Scioncc.Persist.Require
import Scioncc.Persist.Log
import Scioncc.Persist.Append
import Scioncc.Persist.Query
import Scioncc.Persist.Race
import Scioncc.Gateway.RoleCache
import Scioncc.Gateway.Interleaving
import Scioncc.Core.Exception
import Scioncc.Gateway.Parameters
import Scioncc.Gateway.Request
import Scioncc.Gateway.IonObject
import Scioncc.Scripts.GenerateInterfaces
