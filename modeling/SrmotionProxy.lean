import SrmotionProxy.Proton.Wire
import SrmotionProxy.Lib.Confined
import SrmotionProxy.Lib.Runs
import SrmotionProxy.Poll
import SrmotionProxy.Framing
import SrmotionProxy.Decoder
import SrmotionProxy.Agreement
import SrmotionProxy.Canonical
import SrmotionProxy.Proton.RtvarCopies
import SrmotionProxy.Proton.RtvarText
import SrmotionProxy.Proton.RtvarNumbers
import SrmotionProxy.Views
import SrmotionProxy.Connection
import SrmotionProxy.Lifetime
import SrmotionProxy.Redirect
import SrmotionProxy.Consumers
import SrmotionProxy.Disposal
import SrmotionProxy.Frame
import SrmotionProxy.Sessions
import SrmotionProxy.Login
import SrmotionProxy.Options
import SrmotionProxy.Orders
import SrmotionProxy.Captcha
import SrmotionProxy.Fields
import SrmotionProxy.Split
import SrmotionProxy.Tax
import SrmotionProxy.MapData
import SrmotionProxy.Proton.RtvarPatch
import SrmotionProxy.Spawn
import SrmotionProxy.DialogRequest
import SrmotionProxy.DropDialogs
import SrmotionProxy.Elements
import SrmotionProxy.Addressing
import SrmotionProxy.DialogDelivery
import SrmotionProxy.ServerData
import SrmotionProxy.ServedFiles
import SrmotionProxy.Contained
import SrmotionProxy.ENet.Decompressing
import SrmotionProxy.ENet.InFlight
import SrmotionProxy.ENet.Reassembly
