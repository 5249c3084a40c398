import XMeterLogger.Lib.Transition
import XMeterLogger.Lib.Channel
import XMeterLogger.Lib.Simulation
import XMeterLogger.MeterReader
import XMeterLogger.MeterSource
import XMeterLogger.Lib.Heap
import XMeterLogger.Message
import XMeterLogger.MosqForward
import XMeterLogger.Lib.Decimal
import XMeterLogger.Lib.FloatInteger
import XMeterLogger.Lib.Rounding
import XMeterLogger.Lib.FloatText
import XMeterLogger.Lib.LineProtocol
import XMeterLogger.InfluxSink
import XMeterLogger.Lib.LossyChannel
import XMeterLogger.SBus
import XMeterLogger.DataForwarder
import XMeterLogger.MeterPipeline
import XMeterLogger.Error
import XMeterLogger.MosqSink
import XMeterLogger.MosqBridge
import XMeterLogger.QueueSinks
import XMeterLogger.PahoTasks
import XMeterLogger.MqttcSink
import XMeterLogger.MqttcSource
import XMeterLogger.CJson
import XMeterLogger.DataLog
import XMeterLogger.DataLogCodec
import XMeterLogger.Lib.Cursor
import XMeterLogger.Lib.LinkedList
import XMeterLogger.Lib.SharedHeap
import XMeterLogger.Lib.Objects
import XMeterLogger.CList
import XMeterLogger.CListRefinement
import XMeterLogger.CListRuns
import XMeterLogger.Lib.ChainTable
import XMeterLogger.CHashtable
import XMeterLogger.CHashtableRefinement
import XMeterLogger.CHashtableRuns
import XMeterLogger.Lib.Ownership
import XMeterLogger.DataLogMemory
import XMeterLogger.InfluxTask
